import EthPayServer.Consumer.Effects

/-!
# Retraction

A reorganisation retracts payments invoice by invoice.  Every state a
retraction passes through is described by the payments it has marked and the
invoices whose status it has written, relative to the database it started
from; the received amounts follow from the marks.
-/

namespace EthPayServer.Consumer

open Lib Data
open Evm (Time Uuid ReorgDetected)

/-- The payments a reorganisation retracts. -/
def retractions (event : ReorgDetected) (db : Db) : List Payment :=
  (reorgCandidates (.evm event.chainId) event.forkBlock db).filter fun payment =>
    !survived event payment

variable {event : ReorgDetected} {payment : Payment}

theorem mem_retractions :
    payment ∈ retractions event db ↔ payment ∈ db.payments.rows ∧
      payment.chainId = .evm event.chainId ∧
      (payment.blockNumber.any fun number => asI64 event.forkBlock ≤ number) = true ∧
      payment.reorged = false ∧ survived event payment = false := by
  simp only [retractions, reorgCandidates, List.mem_filter, decide_eq_true_eq, Bool.not_eq_true']
  tauto

/-! ## Marked rows -/

def retractRows (ids : List Uuid) (rows : List Payment) : List Payment :=
  rows.map fun payment => if payment.id ∈ ids then payment.retract else payment

theorem retractRows_nil (rows : List Payment) : retractRows [] rows = rows := by
  simp [retractRows]

theorem changeRow_retractRows (id : Uuid) (ids : List Uuid) (rows : List Payment) :
    changeRow id Payment.retract (retractRows ids rows) = retractRows (ids ++ [id]) rows := by
  simp only [changeRow, retractRows, List.map_map]
  refine List.map_congr_left fun payment _ => ?_
  by_cases old : payment.id ∈ ids <;> by_cases new : payment.id = id <;>
    simp_all [Payment.retract]

theorem retractRows_retractRows (ids ids' : List Uuid) (rows : List Payment) :
    retractRows ids' (retractRows ids rows) = retractRows (ids ++ ids') rows := by
  simp only [retractRows, List.map_map]
  refine List.map_congr_left fun payment _ => ?_
  by_cases first : payment.id ∈ ids <;> by_cases second : payment.id ∈ ids' <;>
    simp_all [Payment.retract]

variable {ids ids' marked' written' : List Uuid} {rows rest done : List Payment}

theorem retractRows_congr (same : ∀ payment ∈ rows, payment.id ∈ ids ↔ payment.id ∈ ids') :
    retractRows ids rows = retractRows ids' rows := by
  refine List.map_congr_left fun payment mem => ?_
  rw [if_congr (same payment mem) rfl rfl]

/-- A question about the marked rows, asked of each row as it was. -/
theorem any_retractRows {after before : Payment → Prop} [DecidablePred after] [DecidablePred before]
    (gone : ∀ payment ∈ rows, payment.id ∈ ids → (after payment.retract ↔ before payment))
    (kept : ∀ payment ∈ rows, payment.id ∉ ids → (after payment ↔ before payment)) :
    (retractRows ids rows).any (fun payment => decide (after payment)) =
      rows.any fun payment => decide (before payment) := by
  rw [retractRows, List.any_map, Bool.eq_iff_iff, List.any_eq_true, List.any_eq_true]
  refine exists_congr fun payment => and_congr_right fun mem => ?_
  simp only [Function.comp_apply, decide_eq_true_eq]
  by_cases isMarked : payment.id ∈ ids
  · rw [if_pos isMarked]
    exact gone payment mem isMarked
  · rw [if_neg isMarked]
    exact kept payment mem isMarked

@[simp] theorem creditTo_retract (payment : Payment) (invoiceId : Uuid) :
    payment.retract.creditTo invoiceId = 0 := by
  simp [Payment.creditTo, Payment.retract]

variable {invoiceId : Uuid}

theorem creditedTotal_retractRows_congr
    (same : ∀ payment ∈ rows, payment.invoiceId = invoiceId → (payment.id ∈ ids ↔ payment.id ∈ ids')) :
    creditedTotal (retractRows ids rows) invoiceId =
      creditedTotal (retractRows ids' rows) invoiceId := by
  unfold creditedTotal retractRows
  rw [List.map_map, List.map_map]
  refine congrArg List.sum (List.map_congr_left fun payment mem => ?_)
  by_cases here : payment.invoiceId = invoiceId
  · simp only [Function.comp_apply, if_congr (same payment mem here) rfl rfl]
  · have retracted : payment.retract.invoiceId ≠ invoiceId := here
    by_cases first : payment.id ∈ ids <;> by_cases second : payment.id ∈ ids' <;>
      simp [first, second, Payment.creditTo, here, retracted]

/-- Some retracted row belongs to the invoice. -/
def touched (ids : List Uuid) (rows : List Payment) (invoiceId : Uuid) : Bool :=
  rows.any fun payment => payment.id ∈ ids ∧ payment.invoiceId = invoiceId

/-- Marking more rows touches what either part touches. -/
theorem touched_append (ids ids' : List Uuid) (rows : List Payment) (invoiceId : Uuid) :
    touched (ids ++ ids') rows invoiceId =
      (touched ids rows invoiceId || touched ids' (retractRows ids rows) invoiceId) := by
  simp only [touched, retractRows, List.any_map]
  rw [Bool.eq_iff_iff, Bool.or_eq_true, List.any_eq_true, List.any_eq_true, List.any_eq_true,
    ← exists_or]
  refine exists_congr fun payment => ?_
  rw [← and_or_left]
  refine and_congr_right fun _ => ?_
  have sameRow : (if payment.id ∈ ids then payment.retract else payment).id = payment.id ∧
      (if payment.id ∈ ids then payment.retract else payment).invoiceId = payment.invoiceId := by
    split <;> exact ⟨rfl, rfl⟩
  simp only [Function.comp_apply, sameRow.1, sameRow.2, decide_eq_true_eq, List.mem_append,
    ← or_and_right]

/-- The status an invoice is walked back to once the payments of the given ids are retracted. -/
def statusAfter (db : Db) (goal : List Uuid) (invoiceId : Uuid) : InvoiceStatus :=
  if db.payments.rows.any fun payment =>
      payment.invoiceId = invoiceId ∧ payment.reorged = false ∧ payment.id ∉ goal then
    .processing
  else .pending

/-! ## States of a retraction -/

def retractedInvoice (base : Db) (goal written : List Uuid) (received : Uuid → Numeric 78 18)
    (invoice : Invoice) : Invoice :=
  { invoice with
    amountReceived := received invoice.id
    status := if invoice.id ∈ written then statusAfter base goal invoice.id else invoice.status }

/--
The database in the middle of a retraction that started from `base` and is to
retract `goal`: the payments `marked` are retracted and the invoices `written`
have their status.
-/
structure Retracting (base : Db) (goal marked written : List Uuid) (db : Db) : Prop where
  payments : db.payments.rows = retractRows marked base.payments.rows
  invoices : ∃ received : Uuid → Numeric 78 18,
    db.invoices.rows = base.invoices.rows.map (retractedInvoice base goal written received) ∧
    ∀ invoice ∈ base.invoices.rows, (received invoice.id).units =
      if touched marked base.payments.rows invoice.id then
        creditedTotal (retractRows marked base.payments.rows) invoice.id
      else invoice.amountReceived.units
  catalog : SameCatalog base db

namespace Retracting

variable {base db db' : Db} {goal marked written : List Uuid}

theorem start (base : Db) (goal : List Uuid) : Retracting base goal [] [] base := by
  have found : ∀ invoice ∈ base.invoices.rows,
      ((base.invoices.find? invoice.id).map Invoice.amountReceived).getD 0 = invoice.amountReceived := by
    intro invoice mem
    rw [Table.find?_of_mem mem]
    rfl
  refine ⟨(retractRows_nil _).symm, ⟨fun id =>
    ((base.invoices.find? id).map Invoice.amountReceived).getD 0, ?_, ?_⟩, SameCatalog.refl base⟩
  · have same : ∀ invoice ∈ base.invoices.rows, retractedInvoice base goal [] (fun id =>
        ((base.invoices.find? id).map Invoice.amountReceived).getD 0) invoice = invoice := by
      intro invoice mem
      simp [retractedInvoice, found invoice mem]
    rw [List.map_congr_left same, List.map_id'']
    exact fun _ => rfl
  · intro invoice mem
    simp [touched, found invoice mem]

section

variable (state : Retracting base goal marked written db)
include state

theorem mem_of_unmarked (mem : payment ∈ base.payments.rows) (unmarked : payment.id ∉ marked) :
    payment ∈ db.payments.rows := by
  rw [state.payments]
  exact List.mem_map.mpr ⟨payment, mem, if_neg unmarked⟩

theorem mark (mem : payment ∈ base.payments.rows) (live : payment.reorged = false)
    (unmarked : payment.id ∉ marked) {now : Time} (done : markPaymentReorged payment.id now db = .ok ((), db')) :
    Retracting base goal (marked ++ [payment.id]) written db' ∧
      (creditedTotal (retractRows (marked ++ [payment.id]) base.payments.rows)
        payment.invoiceId).natAbs < 10 ^ 78 := by
  have memDb := state.mem_of_unmarked mem unmarked
  obtain ⟨_, reorged⟩ | ⟨row, memRow, sameId, _, recorded⟩ := markPaymentReorged_ok done
  · rw [reorged payment memDb rfl] at live
    cases live
  obtain rfl : row = payment := db.payments.eq_of_key memRow memDb sameId
  have rows := recorded.payments
  rw [state.payments, changeRow_retractRows] at rows
  obtain ⟨total, isTotal, isInvoices⟩ := recorded.invoices
  rw [state.payments, changeRow_retractRows] at isTotal
  obtain ⟨received, isBefore, isReceived⟩ := state.invoices
  -- only the rows of this payment's invoice see a difference
  have elsewhere : ∀ other ∈ base.payments.rows, other.invoiceId ≠ row.invoiceId →
      (other.id ∈ marked ++ [row.id] ↔ other.id ∈ marked) := by
    intro other memOther apart
    have distinct : other.id ≠ row.id := fun same =>
      apart (by rw [base.payments.eq_of_key memOther mem same])
    simp [distinct]
  refine ⟨⟨rows, ⟨Function.update received row.invoiceId total, ?_, ?_⟩,
    state.catalog.trans recorded.catalog⟩, ?_⟩
  · rw [isInvoices, isBefore, List.map_map]
    refine List.map_congr_left fun invoice _ => ?_
    by_cases here : invoice.id = row.invoiceId
    · simp [Invoice.onPayment, retractedInvoice, here, Payment.retract]
    · simp [Invoice.onPayment, retractedInvoice, here, Payment.retract]
  · intro invoice memInvoice
    by_cases here : invoice.id = row.invoiceId
    · have isTouched : touched (marked ++ [row.id]) base.payments.rows invoice.id = true :=
        List.any_eq_true.mpr ⟨row, mem, by simp [here]⟩
      rw [isTouched, if_pos rfl, here, Function.update_self]
      exact isTotal
    have sameMarks : ∀ other ∈ base.payments.rows, other.invoiceId = invoice.id →
        (other.id ∈ marked ++ [row.id] ↔ other.id ∈ marked) :=
      fun other memOther ofInvoice => elsewhere other memOther (ofInvoice ▸ here)
    have sameTouched : touched (marked ++ [row.id]) base.payments.rows invoice.id =
        touched marked base.payments.rows invoice.id := by
      rw [Bool.eq_iff_iff, touched, touched, List.any_eq_true, List.any_eq_true]
      refine exists_congr fun other => and_congr_right fun memOther => ?_
      simp only [decide_eq_true_eq]
      exact and_congr_left fun ofInvoice => sameMarks other memOther ofInvoice
    rw [Function.update_of_ne here, isReceived invoice memInvoice, sameTouched,
      creditedTotal_retractRows_congr sameMarks]
  · have fits := total.fits
    rw [isTotal] at fits
    exact fits

theorem getInvoice_status (unwritten : invoiceId ∉ written) :
    (getInvoice invoiceId db).map Invoice.status =
      (getInvoice invoiceId base).map Invoice.status := by
  obtain ⟨received, isInvoices, _⟩ := state.invoices
  have sameId : ∀ invoice : Invoice, (retractedInvoice base goal written received invoice).id = invoice.id :=
    fun _ => rfl
  unfold getInvoice Table.find?
  rw [isInvoices, List.find?_map]
  simp only [Function.comp_def, sameId, Option.map_map]
  cases found : base.invoices.rows.find? fun invoice => decide (invoice.id = invoiceId) with
  | none => rfl
  | some invoice =>
    have isId : invoice.id = invoiceId := by simpa using List.find?_some found
    simp [retractedInvoice, isId, unwritten]

theorem write (done : StatusWritten invoiceId (statusAfter base goal invoiceId) db db') :
    Retracting base goal marked (written ++ [invoiceId]) db' := by
  obtain ⟨received, isInvoices, isReceived⟩ := state.invoices
  refine ⟨by rw [done.payments, state.payments], ⟨received, ?_, isReceived⟩,
    state.catalog.trans done.catalog⟩
  rw [done.invoices, isInvoices, List.map_map]
  refine List.map_congr_left fun invoice _ => ?_
  by_cases here : invoice.id = invoiceId
  · simp [Invoice.withStatus, retractedInvoice, here]
  · simp [Invoice.withStatus, retractedInvoice, here]

/-- Once an invoice's own payments are marked, its remaining valid payments decide its status. -/
theorem hasValid
    (complete : ∀ payment ∈ base.payments.rows, payment.invoiceId = invoiceId →
      payment.reorged = false → (payment.id ∈ marked ↔ payment.id ∈ goal)) :
    (if hasValidPayments invoiceId db then InvoiceStatus.processing else .pending) =
      statusAfter base goal invoiceId := by
  unfold statusAfter
  have same : hasValidPayments invoiceId db = base.payments.rows.any fun payment =>
      decide (payment.invoiceId = invoiceId ∧ payment.reorged = false ∧ payment.id ∉ goal) := by
    rw [hasValidPayments, state.payments]
    refine any_retractRows (fun payment mem isMarked => ⟨?_, ?_⟩) fun payment mem unmarked => ⟨?_, ?_⟩
    · rintro ⟨_, live⟩
      cases live
    · rintro ⟨here, live, outside⟩
      exact absurd ((complete payment mem here live).mp isMarked) outside
    · rintro ⟨here, live⟩
      exact ⟨here, live, fun inside => unmarked ((complete payment mem here live).mpr inside)⟩
    · rintro ⟨here, live, _⟩
      exact ⟨here, live⟩
  rw [same]

/-- What a retraction left is determined by the rows it marked and the statuses it wrote. -/
theorem unique (state' : Retracting base goal marked' written' db')
    (sameMarks : ∀ payment ∈ base.payments.rows, payment.id ∈ marked ↔ payment.id ∈ marked')
    (sameStatus : ∀ invoice ∈ base.invoices.rows,
      (if invoice.id ∈ written then statusAfter base goal invoice.id else invoice.status) =
        if invoice.id ∈ written' then statusAfter base goal invoice.id else invoice.status) :
    db.payments.rows = db'.payments.rows ∧ db.invoices.rows = db'.invoices.rows := by
  have sameRows := retractRows_congr sameMarks
  refine ⟨by rw [state.payments, state'.payments, sameRows], ?_⟩
  obtain ⟨received, isInvoices, isReceived⟩ := state.invoices
  obtain ⟨received', isInvoices', isReceived'⟩ := state'.invoices
  have sameTouched : ∀ invoiceId, touched marked base.payments.rows invoiceId =
      touched marked' base.payments.rows invoiceId := by
    intro invoiceId
    rw [Bool.eq_iff_iff, touched, touched, List.any_eq_true, List.any_eq_true]
    refine exists_congr fun payment => and_congr_right fun mem => ?_
    simp only [decide_eq_true_eq]
    exact and_congr_left fun _ => sameMarks payment mem
  rw [isInvoices, isInvoices']
  refine List.map_congr_left fun invoice mem => ?_
  have sameReceived : received invoice.id = received' invoice.id := by
    apply Numeric.ext
    rw [isReceived invoice mem, isReceived' invoice mem, sameTouched, sameRows]
  simp only [retractedInvoice, sameReceived, sameStatus invoice mem]

/-- Equal invoices show equal statuses. -/
theorem same_status (state' : Retracting base goal marked' written' db')
    (sameInvoices : db.invoices.rows = db'.invoices.rows) :
    ∀ invoice ∈ base.invoices.rows,
      (if invoice.id ∈ written then statusAfter base goal invoice.id else invoice.status) =
        if invoice.id ∈ written' then statusAfter base goal invoice.id else invoice.status := by
  intro invoice mem
  obtain ⟨received, isInvoices, _⟩ := state.invoices
  obtain ⟨received', isInvoices', _⟩ := state'.invoices
  rw [isInvoices, isInvoices'] at sameInvoices
  have sameInvoice := List.map_inj_left.mp sameInvoices invoice mem
  exact congrArg Invoice.status sameInvoice

/-- What is left of a goal decides the same statuses as the whole goal did. -/
theorem statusAfter_rest {rest : List Uuid}
    (sameGoal : ∀ payment ∈ base.payments.rows, payment.reorged = false →
      (payment.id ∈ goal ↔ payment.id ∈ marked ∨ payment.id ∈ rest)) (invoiceId : Uuid) :
    statusAfter db rest invoiceId = statusAfter base goal invoiceId := by
  unfold statusAfter
  congr 2
  rw [state.payments]
  refine any_retractRows (fun payment mem isMarked => ⟨?_, ?_⟩) fun payment mem unmarked => ?_
  · rintro ⟨_, live, _⟩
    cases live
  · rintro ⟨_, live, outside⟩
    exact absurd ((sameGoal payment mem live).mpr (.inl isMarked)) outside
  · refine and_congr_right fun _ => and_congr_right fun live => not_congr ?_
    rw [sameGoal payment mem live]
    simp [unmarked]

end

/-- A retraction that goes on where another one stopped. -/
theorem trans {mid : Db} {goal' : List Uuid} (first : Retracting base goal marked written mid)
    (second : Retracting mid goal' marked' written' db)
    (sameGoal : ∀ payment ∈ base.payments.rows, payment.reorged = false →
      (payment.id ∈ goal ↔ payment.id ∈ marked ∨ payment.id ∈ goal')) :
    Retracting base goal (marked ++ marked') (written ++ written') db := by
  have rows : retractRows marked' mid.payments.rows =
      retractRows (marked ++ marked') base.payments.rows := by
    rw [first.payments, retractRows_retractRows]
  have sameAfter := first.statusAfter_rest sameGoal
  obtain ⟨received, isMid, isReceived⟩ := first.invoices
  obtain ⟨received', isInvoices, isReceived'⟩ := second.invoices
  refine ⟨by rw [second.payments, rows], ⟨received', ?_, ?_⟩, first.catalog.trans second.catalog⟩
  · rw [isInvoices, isMid, List.map_map]
    refine List.map_congr_left fun invoice _ => ?_
    by_cases late : invoice.id ∈ written' <;> by_cases early : invoice.id ∈ written <;>
      simp [retractedInvoice, late, early, sameAfter]
  intro invoice mem
  have memMid : retractedInvoice base goal written received invoice ∈ mid.invoices.rows := by
    rw [isMid]
    exact List.mem_map_of_mem mem
  have later := isReceived' _ memMid
  have earlier := isReceived invoice mem
  have sameId : (retractedInvoice base goal written received invoice).id = invoice.id := rfl
  rw [sameId] at later
  rw [later, touched_append, ← first.payments, rows]
  cases late : touched marked' mid.payments.rows invoice.id with
  | true => simp
  | false =>
    simp only [Bool.false_eq_true, if_false, Bool.or_false, retractedInvoice, earlier]
    split
    · refine creditedTotal_retractRows_congr fun payment memPayment here => ?_
      have untouched := List.any_eq_false.mp late
      by_cases isMarked : payment.id ∈ marked
      · simp [isMarked]
      have memMid := first.mem_of_unmarked memPayment isMarked
      have outside := untouched payment memMid
      simp only [decide_eq_true_eq, not_and] at outside
      have : payment.id ∉ marked' := fun inside => outside inside here
      simp [isMarked, this]
    · rfl

end Retracting

/-! ## Runs of a retraction -/

structure IsGroup (base : Db) (goal : List Uuid) (group : Uuid × List Payment) : Prop where
  nonempty : group.2 ≠ []
  rows : ∀ payment ∈ group.2, payment ∈ base.payments.rows ∧ payment.reorged = false ∧
    payment.invoiceId = group.1
  distinct : (group.2.map Payment.id).Nodup
  complete : ∀ payment ∈ base.payments.rows, payment.invoiceId = group.1 → payment.reorged = false →
    (payment.id ∈ group.2.map Payment.id ↔ payment.id ∈ goal)

/-- The received amount fits its column after the mark at a position of the group. -/
def SinksAt (base : Db) (group : Uuid × List Payment) (k : Nat) : Prop :=
  (creditedTotal (retractRows ((group.2.take (k + 1)).map Payment.id) base.payments.rows)
    group.1).natAbs < 10 ^ 78

/-- The received amount fits its column after each mark of the group. -/
def Sinks (base : Db) (group : Uuid × List Payment) : Prop :=
  ∀ k < group.2.length, SinksAt base group k

/-- The invoice of a group has a status the retraction may write. -/
def isOpen (base : Db) (invoiceId : Uuid) : Bool :=
  (getInvoice invoiceId base).any fun invoice => !isClosed invoice.status

/-- How many statements a group takes: its marks, two reads, and the write of an open status. -/
def groupCalls (base : Db) (group : Uuid × List Payment) : Nat :=
  group.2.length + if isOpen base group.1 then 3 else 2

/-- The invoices whose status a group writes. -/
def opened (base : Db) (group : Uuid × List Payment) : List Uuid :=
  if isOpen base group.1 then [group.1] else []

def groupIds (group : Uuid × List Payment) : List Uuid := group.2.map Payment.id

variable {group : Uuid × List Payment}

theorem eq_of_mem_opened {base : Db} (mem : invoiceId ∈ opened base group) : invoiceId = group.1 := by
  unfold opened at mem
  split at mem
  · exact List.mem_singleton.mp mem
  · cases mem

theorem markPaymentReorged_total (mem : payment ∈ db.payments.rows) (live : payment.reorged = false)
    (fits : (creditedTotal (changeRow payment.id Payment.retract db.payments.rows)
      payment.invoiceId).natAbs < 10 ^ 78) (now : Time) :
    ∃ db', markPaymentReorged payment.id now db = .ok ((), db') := by
  have found : db.payments.rows.find?
      (fun other => decide (other.id = payment.id ∧ other.reorged = false)) = some payment :=
    Table.find?_of_unique mem (by simp [live]) fun other memOther same =>
      db.payments.eq_of_key memOther mem (of_decide_eq_true same).1
  obtain ⟨db', done⟩ := updatePayment_total payment Payment.retract (by simp) fits now
  refine ⟨db', ?_⟩
  unfold markPaymentReorged
  rw [found]
  simp only [done, Except.map]

variable {groups : List (Uuid × List Payment)} (delivery : Delivery)

section Runs

variable {world : World EventConsumerError Time} {base : Db} {goal : List Uuid} {cut : Nat}

/-- An invoice's total only sees the marks of its own group, and those are a front part of it. -/
theorem total_front {marked : List Uuid}
    (outside : ∀ payment ∈ base.payments.rows, payment.invoiceId = group.1 → payment.id ∉ marked)
    (split : group.2 = done ++ payment :: rest) :
    creditedTotal (retractRows (marked ++ done.map Payment.id ++ [payment.id]) base.payments.rows)
        group.1 =
      creditedTotal (retractRows ((group.2.take (done.length + 1)).map Payment.id)
        base.payments.rows) group.1 := by
  refine creditedTotal_retractRows_congr fun other memOther isOther => ?_
  have front : (group.2.take (done.length + 1)).map Payment.id =
      done.map Payment.id ++ [payment.id] := by
    rw [split, List.take_append]
    simp
  simp [front, outside other memOther isOther]

theorem IsGroup.unmarked (isGroup : IsGroup base goal group) {marked : List Uuid}
    (outside : ∀ payment ∈ base.payments.rows, payment.invoiceId = group.1 → payment.id ∉ marked)
    (split : group.2 = done ++ payment :: rest) : payment.id ∉ marked ++ done.map Payment.id := by
  obtain ⟨mem, _, ofInvoice⟩ := isGroup.rows payment (by simp [split])
  have nodup := isGroup.distinct
  rw [split, List.map_append, List.map_cons, List.nodup_append] at nodup
  rw [List.mem_append, not_or]
  exact ⟨outside payment mem ofInvoice, fun inside => nodup.2.2 _ inside _ List.mem_cons_self rfl⟩

/-- The marks of a group all go through, or stop at the first one that faults or that its total refuses. -/
theorem marks_cases (isGroup : IsGroup base goal group)
    (outside : ∀ payment ∈ base.payments.rows, payment.invoiceId = group.1 → payment.id ∉ marked)
    (rest done : List Payment) (split : group.2 = done ++ rest) (i : Nat)
    (state : Retracting base goal (marked ++ done.map Payment.id) written db) :
    (∃ db', forM rest (fun payment => statement (markPaymentReorged payment.id)) world i db =
        ⟨.ok (), i + rest.length, db'⟩ ∧ Proc.Answered world i rest.length ∧
      Retracting base goal (marked ++ groupIds group) written db' ∧
      ∀ k < rest.length, SinksAt base group (done.length + k)) ∨
    ∃ n < rest.length, ∃ e db',
      forM rest (fun payment => statement (markPaymentReorged payment.id)) world i db =
        ⟨.error e, i + n + 1, db'⟩ ∧ Proc.Answered world i n ∧
      Retracting base goal (marked ++ (done ++ rest.take n).map Payment.id) written db' ∧
      (SinksAt base group (done.length + n) → world (i + n) = .error e) := by
  induction rest generalizing done i db with
  | nil =>
    refine .inl ⟨db, rfl, by simp [Proc.Answered], ?_, by simp⟩
    rw [groupIds, split, List.append_nil]
    exact state
  | cons payment rest ih =>
    obtain ⟨mem, live, ofInvoice⟩ := isGroup.rows payment (by simp [split])
    have unmarked := isGroup.unmarked outside split
    rw [List.forM_cons, Proc.bind_apply]
    cases answered : world i with
    | error e =>
      have stop : statement (markPaymentReorged payment.id) world i db = ⟨.error e, i + 1, db⟩ :=
        Proc.call_of_fault answered db
      rw [stop, Outcome.andThen_error]
      exact .inr ⟨0, by simp, e, db, rfl, by simp [Proc.Answered], by simpa using state, fun _ => answered⟩
    | ok now =>
      cases marks : markPaymentReorged payment.id now db with
      | error error =>
        have stop : statement (markPaymentReorged payment.id) world i db =
            ⟨.error (.database error), i + 1, db⟩ := Proc.call_of_refused answered (by rw [marks]; rfl)
        rw [stop, Outcome.andThen_error]
        refine .inr ⟨0, by simp, _, db, rfl, by simp [Proc.Answered], by simpa using state, fun fits => ?_⟩
        rw [SinksAt, Nat.add_zero, ← total_front outside split, ← changeRow_retractRows, ← state.payments,
          ← ofInvoice] at fits
        obtain ⟨next, done⟩ := markPaymentReorged_total (state.mem_of_unmarked mem unmarked) live fits now
        rw [marks] at done
        cases done
      | ok result =>
        have step : statement (markPaymentReorged payment.id) world i db = ⟨.ok (), i + 1, result.2⟩ :=
          statement_of_ok _ answered marks
        obtain ⟨moved, fits⟩ := state.mark mem live unmarked marks
        rw [ofInvoice, total_front outside split] at fits
        rw [step, Outcome.andThen_ok, List.length_cons]
        rcases ih (done ++ [payment]) (by simp [split]) (i + 1) (by simpa using moved) with
          ⟨db', outcome, later, final, sinks⟩ | ⟨n, short, e, db', outcome, later, final, why⟩
        · refine .inl ⟨db', by rw [outcome, Nat.add_right_comm, Nat.add_assoc], .cons answered later, final, ?_⟩
          intro k below
          cases k with
          | zero => exact fits
          | succ k =>
            have here := sinks k (by omega)
            rwa [List.length_append, List.length_singleton, Nat.add_assoc, Nat.add_comm 1 k] at here
        refine .inr ⟨n + 1, by omega, e, db', by rw [outcome, Nat.add_right_comm i 1 n, Nat.add_assoc i n 1],
          .cons answered later, by simpa using final, ?_⟩
        rw [List.length_append, List.length_singleton, Nat.add_assoc, Nat.add_comm 1 n] at why
        rw [show i + (n + 1) = i + 1 + n by omega]
        exact why

theorem isOpen_iff {invoice : Invoice} (found : getInvoice invoiceId base = some invoice) :
    isOpen base invoiceId = !isClosed invoice.status := by
  simp [isOpen, found]

section

variable (isGroup : IsGroup base goal group)
include isGroup

theorem exists_current (unwritten : group.1 ∉ written) (state : Retracting base goal marked written db) :
    ∃ current, getInvoice group.1 db = some current ∧
      isOpen base group.1 = !isClosed current.status := by
  obtain ⟨payment, memPayment⟩ := List.exists_mem_of_ne_nil _ isGroup.nonempty
  obtain ⟨memBase, _, ofInvoice⟩ := isGroup.rows payment memPayment
  have known := base.paymentInvoice payment memBase
  rw [ofInvoice] at known
  obtain ⟨invoice, isInvoice⟩ := Table.exists_find? known
  have sameStatus := state.getInvoice_status unwritten
  rw [show getInvoice group.1 base = some invoice from isInvoice] at sameStatus
  obtain ⟨current, isCurrent, hasStatus⟩ := Option.map_eq_some_iff.mp sameStatus
  exact ⟨current, isCurrent, by rw [isOpen_iff isInvoice, hasStatus]⟩

/-- The part of a group after its marks, all of it or up to the call that failed. -/
theorem status_cases
    (outside : ∀ payment ∈ base.payments.rows, payment.invoiceId = group.1 → payment.id ∉ marked)
    (unwritten : group.1 ∉ written) (i : Nat)
    (state : Retracting base goal (marked ++ groupIds group) written db) :
    let tail : ConsumerM Unit := do
      let hasValid ← query (hasValidPayments group.1)
      applyReorgStatus group.1 (if hasValid then .processing else .pending)
    let calls := if isOpen base group.1 then 3 else 2
    (∃ db', tail world i db = ⟨.ok (), i + calls, db'⟩ ∧ Proc.Answered world i calls ∧
      Retracting base goal (marked ++ groupIds group) (written ++ opened base group) db') ∨
    ∃ n < calls, ∃ e, tail world i db = ⟨.error e, i + n + 1, db⟩ ∧ Proc.Answered world i n ∧
      world (i + n) = .error e := by
  intro tail calls
  obtain ⟨current, isCurrent, openness⟩ := exists_current isGroup unwritten state
  have computed : (if hasValidPayments group.1 db then InvoiceStatus.processing else .pending) =
      statusAfter base goal group.1 := by
    refine state.hasValid fun other memOther isOther live => ?_
    rw [List.mem_append, ← isGroup.complete other memOther isOther live]
    exact or_iff_right (outside other memOther isOther)
  have least : 2 ≤ calls := by
    simp only [calls]
    split <;> omega
  rcases (query_reads (hasValidPayments group.1) db).andThen (fun hasValid =>
      applyReorgStatus group.1 (if hasValid then .processing else .pending)) world i with
    ⟨n, e, below, before, fault, outcome⟩ | ⟨first, outcome⟩
  · exact .inr ⟨n, by omega, e, outcome, before, fault⟩
  obtain ⟨rest, isRest, onCurrent⟩ : ∃ rest, applyReorgStatus group.1 (statusAfter base goal group.1) =
      query (getInvoice group.1) >>= rest ∧ rest (some current) = if isClosed current.status then pure ()
        else statement fun _ db => updateStatus group.1 (statusAfter base goal group.1) db := ⟨_, rfl, rfl⟩
  rw [computed, isRest] at outcome
  rcases (query_reads (getInvoice group.1) db).andThen rest world (i + 1) with
    ⟨n, e, below, before, fault, outcome'⟩ | ⟨second, outcome'⟩
  · refine .inr ⟨1 + n, by omega, e, ?_, first.append before, by rwa [← Nat.add_assoc]⟩
    rw [← Nat.add_assoc]
    exact outcome.trans outcome'
  have reaches := outcome.trans outcome'
  rw [isCurrent, onCurrent] at reaches
  by_cases closed : isClosed current.status
  · have isCalls : calls = 2 := by simp [calls, openness, closed]
    have isOpened : opened base group = [] := by simp [opened, openness, closed]
    rw [if_pos closed] at reaches
    rw [isCalls, isOpened, List.append_nil]
    exact .inl ⟨db, reaches, first.append second, state⟩
  have isCalls : calls = 3 := by simp [calls, openness, closed]
  have isOpened : opened base group = [group.1] := by simp [opened, openness, closed]
  rw [if_neg closed] at reaches
  rw [isCalls, isOpened]
  cases third : world (i + 1 + 1) with
  | error e =>
    exact .inr ⟨2, by omega, e, reaches.trans (Proc.call_of_fault third db), first.append second, third⟩
  | ok now =>
    obtain ⟨memRow, isRow⟩ := Table.find?_eq_some.mp
      (show db.invoices.find? group.1 = some current from isCurrent)
    have done : updateStatus group.1 (statusAfter base goal group.1) db =
        .ok ((), db.updateInvoices (Invoice.withStatus group.1 (statusAfter base goal group.1))
          (by simp)) := by
      rw [updateStatus, if_pos (Table.mem_keys.mpr ⟨current, memRow, isRow⟩)]
    refine .inl ⟨_, reaches.trans (statement_of_ok _ third done), ?_, state.write (updateStatus_ok done)⟩
    exact first.append (second.append (.cons (n := 0) third (by simp [Proc.Answered])))

/-- A group goes through, or stops at the first call that faults or at a mark that its total refuses. -/
theorem group_cases
    (outside : ∀ payment ∈ base.payments.rows, payment.invoiceId = group.1 → payment.id ∉ marked)
    (unwritten : group.1 ∉ written) (i : Nat) (state : Retracting base goal marked written db) :
    (∃ db', retractGroup group world i db = ⟨.ok (), i + groupCalls base group, db'⟩ ∧
      Proc.Answered world i (groupCalls base group) ∧ Sinks base group ∧
      Retracting base goal (marked ++ groupIds group) (written ++ opened base group) db') ∨
    ∃ n < groupCalls base group, ∃ e db', retractGroup group world i db = ⟨.error e, i + n + 1, db'⟩ ∧
      Proc.Answered world i n ∧
      Retracting base goal (marked ++ (group.2.take n).map Payment.id) written db' ∧
      ((n < group.2.length → SinksAt base group n) → world (i + n) = .error e) := by
  rw [retractGroup, Proc.bind_apply, groupCalls]
  rcases marks_cases isGroup outside group.2 [] rfl i (by simpa using state) with
    ⟨mid, outcome, answered, midState, sinks⟩ | ⟨n, short, e, db', outcome, before, final, why⟩
  · rw [outcome, Outcome.andThen_ok]
    rcases status_cases isGroup outside unwritten (i + group.2.length) midState with
      ⟨db', rest, later, final⟩ | ⟨n, short, e, rest, later, fault⟩
    · refine .inl ⟨db', by rw [← Nat.add_assoc]; exact rest, answered.append later, ?_, final⟩
      intro k below
      have here := sinks k below
      rwa [List.length_nil, Nat.zero_add] at here
    · refine .inr ⟨group.2.length + n, by omega, e, mid, by rw [← Nat.add_assoc]; exact rest,
        answered.append later, ?_, fun _ => by rwa [← Nat.add_assoc]⟩
      rw [List.take_of_length_le (by omega)]
      exact midState
  · rw [outcome, Outcome.andThen_error]
    refine .inr ⟨n, by omega, e, db', rfl, before, by simpa using final, fun fits => why ?_⟩
    simpa using fits short

end

/-- The statements a list of groups takes. -/
def totalCalls (base : Db) (groups : List (Uuid × List Payment)) : Nat :=
  (groups.map (groupCalls base)).sum

structure IsPlan (base : Db) (goal : List Uuid) (groups : List (Uuid × List Payment)) : Prop where
  group : ∀ group ∈ groups, IsGroup base goal group
  distinct : (groups.map Prod.fst).Nodup

theorem IsGroup.invoice_of_mem (isGroup : IsGroup base goal group) (mem : payment ∈ base.payments.rows)
    (inside : payment.id ∈ groupIds group) : payment.invoiceId = group.1 := by
  obtain ⟨other, memOther, same⟩ := List.mem_map.mp inside
  obtain ⟨memBase, _, ofInvoice⟩ := isGroup.rows other memOther
  rw [← base.payments.eq_of_key memBase mem same]
  exact ofInvoice

/-- The payments and the invoice of a later group are not the ones of the groups before it. -/
theorem IsPlan.apart {done rest : List (Uuid × List Payment)} (plan : IsPlan base goal (done ++ rest))
    (mem : group ∈ rest) : (∀ payment ∈ base.payments.rows, payment.invoiceId = group.1 →
      payment.id ∉ done.flatMap groupIds) ∧ group.1 ∉ done.flatMap (opened base) := by
  have distinct := plan.distinct
  rw [List.map_append, List.nodup_append] at distinct
  have differs : ∀ other ∈ done, group.1 ≠ other.1 := fun other memOther same =>
    distinct.2.2 _ (List.mem_map_of_mem memOther) _ (List.mem_map_of_mem mem) same.symm
  refine ⟨fun payment memPayment ofGroup inside => ?_, fun inside => ?_⟩
  · obtain ⟨other, memOther, inOther⟩ := List.mem_flatMap.mp inside
    have ofOther := (plan.group other (List.mem_append_left _ memOther)).invoice_of_mem memPayment inOther
    exact differs other memOther (ofGroup.symm.trans ofOther)
  · obtain ⟨other, memOther, inOther⟩ := List.mem_flatMap.mp inside
    exact differs other memOther (eq_of_mem_opened inOther)

/--
How the groups `rest` end when they start at call `i`, after the groups `done`:
they all go through, or they stop inside one of them.
-/
inductive Ending (base : Db) (goal : List Uuid) (world : World EventConsumerError Time) (i : Nat)
    (done rest : List (Uuid × List Payment)) (outcome : Outcome EventConsumerError Db Unit) : Prop
  | whole (db' : Db) (ends : outcome = ⟨.ok (), i + totalCalls base rest, db'⟩)
      (answered : Proc.Answered world i (totalCalls base rest)) (sinks : ∀ group ∈ rest, Sinks base group)
      (state : Retracting base goal ((done ++ rest).flatMap groupIds)
        ((done ++ rest).flatMap (opened base)) db')
  | inside (front back : List (Uuid × List Payment)) (group : Uuid × List Payment) (n : Nat)
      (e : EventConsumerError) (db' : Db) (split : rest = front ++ group :: back)
      (short : n < groupCalls base group)
      (ends : outcome = ⟨.error e, i + (totalCalls base front + n) + 1, db'⟩)
      (answered : Proc.Answered world i (totalCalls base front + n))
      (state : Retracting base goal ((done ++ front).flatMap groupIds ++ (group.2.take n).map Payment.id)
        ((done ++ front).flatMap (opened base)) db')
      (why : (n < group.2.length → SinksAt base group n) →
        world (i + (totalCalls base front + n)) = .error e)

theorem groups_cases {done rest : List (Uuid × List Payment)} (plan : IsPlan base goal (done ++ rest)) (i : Nat)
    (state : Retracting base goal (done.flatMap groupIds) (done.flatMap (opened base)) db) :
    Ending base goal world i done rest (forM rest retractGroup world i db) := by
  induction rest generalizing done i db with
  | nil => exact .whole db rfl (by simp [totalCalls, Proc.Answered]) (by simp) (by simpa using state)
  | cons group rest ih =>
    obtain ⟨outside, unwritten⟩ := plan.apart List.mem_cons_self
    have calls : ∀ groups, totalCalls base (group :: groups) = groupCalls base group + totalCalls base groups := by
      simp [totalCalls]
    rw [List.forM_cons, Proc.bind_apply]
    rcases group_cases (plan.group group (by simp)) outside unwritten i state with
      ⟨mid, outcome, within, sinks, midState⟩ | ⟨n, short, e, db', outcome, before, final, why⟩
    · rw [outcome, Outcome.andThen_ok]
      have next : IsPlan base goal (done ++ [group] ++ rest) := by simpa using plan
      rcases ih next (i + groupCalls base group) (by simpa using midState) with
        ⟨db', ends, later, sinksLater, final⟩ | ⟨front, back, last, n, e, db', split, short, ends, later, final, why⟩
      · refine .whole db' (by rw [ends, calls, Nat.add_assoc]) ?_ (List.forall_mem_cons.mpr ⟨sinks, sinksLater⟩)
          (by simpa using final)
        rw [calls]
        exact within.append later
      refine .inside (group :: front) back last n e db' (by simp [split]) short ?_ ?_ (by simpa using final) ?_
      · rw [ends, calls, Nat.add_assoc (groupCalls base group), ← Nat.add_assoc i]
      · rw [calls, Nat.add_assoc]
        exact within.append later
      · rw [calls, Nat.add_assoc, ← Nat.add_assoc i]
        exact why
    have none : totalCalls base [] + n = n := Nat.zero_add n
    rw [outcome, Outcome.andThen_error]
    refine .inside [] rest group n e db' rfl short (by rw [none]) (by rwa [none]) ?_ (by rwa [none])
    rw [List.append_nil]
    exact final

end Runs

/-! ## The plan of a reorganisation -/

/-- The groups a delivery visits, in its order. -/
def retractionPlan (delivery : Delivery) (event : ReorgDetected) (db : Db) :
    List (Uuid × List Payment) :=
  arrange delivery.order (byInvoice (retractions event db))

def retractionIds (event : ReorgDetected) (db : Db) : List Uuid :=
  (retractions event db).map Payment.id

theorem mem_retractionIds (mem : payment ∈ db.payments.rows) :
    payment.id ∈ retractionIds event db ↔ payment ∈ retractions event db := by
  constructor
  · intro inside
    obtain ⟨other, memOther, same⟩ := List.mem_map.mp inside
    rw [← db.payments.eq_of_key (mem_retractions.mp memOther).1 mem same]
    exact memOther
  · intro inside
    exact List.mem_map_of_mem inside

theorem mem_byInvoice {payments : List Payment} :
    group ∈ byInvoice payments ↔ (∃ payment ∈ payments, payment.invoiceId = group.1) ∧
      group.2 = payments.filter fun payment => payment.invoiceId = group.1 := by
  obtain ⟨invoiceId, rows⟩ := group
  simp only [byInvoice, List.mem_map, List.mem_dedup, Prod.mk.injEq]
  constructor
  · rintro ⟨_, ⟨payment, mem, rfl⟩, rfl, rfl⟩
    exact ⟨⟨payment, mem, rfl⟩, rfl⟩
  · rintro ⟨⟨payment, mem, rfl⟩, isRows⟩
    exact ⟨payment.invoiceId, ⟨payment, mem, rfl⟩, rfl, isRows.symm⟩

theorem retractionPlan_isPlan (event : ReorgDetected) (db : Db) :
    IsPlan db (retractionIds event db) (retractionPlan delivery event db) := by
  constructor
  · intro group mem
    obtain ⟨⟨payment, memPayment, ofInvoice⟩, isRows⟩ := mem_byInvoice.mp (mem_arrange.mp mem)
    constructor
    · rw [isRows]
      exact List.ne_nil_of_mem (List.mem_filter.mpr ⟨memPayment, by simpa using ofInvoice⟩)
    · intro other memOther
      rw [isRows, List.mem_filter] at memOther
      obtain ⟨memBase, _, _, live, _⟩ := mem_retractions.mp memOther.1
      exact ⟨memBase, live, by simpa using memOther.2⟩
    · rw [isRows]
      have sublist : ((retractions event db).filter fun payment =>
          decide (payment.invoiceId = group.1)).Sublist db.payments.rows :=
        List.filter_sublist.trans (List.filter_sublist.trans List.filter_sublist)
      exact db.payments.nodup.sublist (sublist.map Payment.id)
    intro other memOther ofGroup _
    rw [mem_retractionIds memOther]
    constructor
    · intro inside
      obtain ⟨row, memRow, same⟩ := List.mem_map.mp inside
      rw [isRows, List.mem_filter] at memRow
      rw [← db.payments.eq_of_key (mem_retractions.mp memRow.1).1 memOther same]
      exact memRow.1
    · intro inside
      rw [isRows]
      exact List.mem_map_of_mem (List.mem_filter.mpr ⟨inside, by simpa using ofGroup⟩)
  have invoices : (byInvoice (retractions event db)).map Prod.fst =
      ((retractions event db).map Payment.invoiceId).dedup := by
    simp [byInvoice, Function.comp_def]
  have order := (arrange_perm delivery.order (byInvoice (retractions event db))).map Prod.fst
  rw [retractionPlan, order.nodup_iff, invoices]
  exact List.nodup_dedup _

theorem mem_retractionPlan (mem : payment ∈ retractions event db) :
    ∃ group ∈ retractionPlan delivery event db, group.1 = payment.invoiceId ∧ payment ∈ group.2 := by
  refine ⟨(payment.invoiceId, (retractions event db).filter fun other =>
    other.invoiceId = payment.invoiceId), ?_, rfl, ?_⟩
  · exact mem_arrange.mpr (mem_byInvoice.mpr ⟨⟨payment, mem, rfl⟩, rfl⟩)
  · exact List.mem_filter.mpr ⟨mem, by simp⟩

theorem handleReorgDetected_cases (verifiable : event.survivorsVerifiable = true)
    (world : World EventConsumerError Time) (db : Db) :
    (∃ e, world 0 = .error e ∧ handleReorgDetected delivery event world 0 db = ⟨.error e, 1, db⟩) ∨
      Ending db (retractionIds event db) world 1 [] (retractionPlan delivery event db)
        (handleReorgDetected delivery event world 0 db) ∧ Proc.Answered world 0 1 := by
  rw [handleReorgDetected, if_pos verifiable]
  rcases (query_reads (reorgCandidates (.evm event.chainId) event.forkBlock) db).andThen
    (fun candidates => forM (arrange delivery.order (byInvoice (candidates.filter fun payment =>
      !survived event payment))) retractGroup) world 0 with
    ⟨n, e, below, before, fault, outcome⟩ | ⟨first, outcome⟩
  · obtain rfl : n = 0 := by omega
    exact .inl ⟨e, fault, outcome⟩
  · rw [outcome]
    exact .inr ⟨groups_cases (retractionPlan_isPlan delivery event db) 1 (Retracting.start db _), first⟩

end EthPayServer.Consumer
