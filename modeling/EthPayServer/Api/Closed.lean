import EthPayServer.Api.Payouts
import EthPayServer.Consumer.Threads

/-!
# Closed invoices

Cancellation, the event consumer and the expiry job write the status of an
invoice side by side.  Each but the expiry reads the status, decides, and then
writes with an update that compares nothing.  Where the invoice was not closed
in between, a closed invoice stays closed; the expiry carries its guard in the
statement.
-/

namespace EthPayServer.Api

open Lib Data Consumer
open Evm (Time Uuid MonitorEvent ReorgDetected)

/-! ## The writers -/

def isPayable (status : InvoiceStatus) : Bool :=
  match status with
  | .pending | .processing | .partiallyPaid => true
  | _ => false

def cancelInvoice (relied : Uuid → InvoiceStatus → Db → Prop) (invoiceId : Uuid) :
    Thread Time StatusCode Db Invoice := do
  match ← Thread.query (getInvoice invoiceId) with
  | none => Thread.fail .notFound
  | some invoice =>
    if isPayable invoice.status then do
      Thread.assuming (relied invoiceId invoice.status) (Thread.statement fun _ db =>
        (updateStatus invoiceId .cancelled db).mapError fun _ => .internalServerError)
      -- `deactivate_for_invoice` writes a column of the options that nothing here reads
      let _ ← (Thread.query fun _ => ()).attempt
      let _ ← (Thread.query (getForInvoice invoiceId)).attempt
      pure { invoice with status := .cancelled }
    else Thread.fail .badRequest

/-- `stream_expired_pending`: open invoices past their expiry, oldest first. -/
def streamExpiredPending (now : Time) (db : Db) : List Uuid :=
  ((db.invoices.rows.filter fun invoice => isPayable invoice.status ∧ invoice.expiresAt < now)
    |>.insertionSort fun invoice other => invoice.expiresAt ≤ other.expiresAt).map Invoice.id

/-- Expire the open invoices that are past their expiry; an error is logged and the next one tried. -/
def checkExpired {ε : Type} : Thread Time ε Db Unit := do
  match ← (Thread.statement fun now db => .ok (streamExpiredPending now db, db)).attempt with
  | .error _ => pure ()
  | .ok ids => forM ids fun id => do
    let _ ← (Thread.statement fun _ db => .ok ((), expire id db)).attempt
    pure ()

inductive ClosingRequest where
  | apply (delivery : Delivery) (event : MonitorEvent)
  | cancel (invoiceId : Uuid)
  | checkExpired

abbrev ServerError : Type := EventConsumerError ⊕ StatusCode

/-- The event consumer among the other writers of the database. -/
def consumerView : Thread.View Db EventConsumerError Db ServerError where
  part := id
  replace db _ := db
  fault := Sum.elim id fun _ => .stopped
  report := .inl

def apiView : Thread.View Db StatusCode Db ServerError where
  part := id
  replace db _ := db
  fault := Sum.elim (fun _ => .internalServerError) id
  report := .inr

def OpenOrAsRead (invoiceId : Uuid) (seen : InvoiceStatus) (db : Db) : Prop :=
  ∀ invoice ∈ db.invoices.rows, invoice.id = invoiceId →
    isPayable invoice.status = true ∨ invoice.status = seen

def closingDesk (divide : Division) : Service ClosingRequest Time ServerError Db Unit where
  initial _ := True
  legal _ _ := True
  body request _ :=
    match request with
    | .apply delivery event =>
      (Interleaved.handleEvent OpenOrAsRead divide delivery event).embed consumerView
    | .cancel invoiceId => do
      let _ ← (cancelInvoice OpenOrAsRead invoiceId).embed apiView
      pure ()
    | .checkExpired => checkExpired

/-! ## What a write may do to a status -/

def ClosingRequest.IsReorg (request : ClosingRequest) : Prop :=
  ∃ delivery event, request = .apply delivery (.reorgDetected event)

structure Moves (byReorg : Prop) (status later : InvoiceStatus) : Prop where
  closed : status = .cancelled ∨ status = .refunded ∨ status = .latePaid → later = status
  expired : status = .expired → later = .expired ∨ later = .latePaid
  paid : status = .paid → later = .paid ∨ byReorg

def StatusesMove (byReorg : Prop) (db db' : Db) : Prop :=
  ∀ invoice ∈ db.invoices.rows, ∃ later ∈ db'.invoices.rows, later.id = invoice.id ∧
    Moves byReorg invoice.status later.status

variable {byReorg : Prop}

theorem Moves.refl (status : InvoiceStatus) : Moves byReorg status status :=
  ⟨fun _ => rfl, Or.inl, Or.inl⟩

theorem StatusesMove.refl (db : Db) : StatusesMove byReorg db db :=
  fun invoice mem => ⟨invoice, mem, rfl, .refl _⟩

variable {db db' : Db}

theorem StatusesMove.of_map {change : Invoice → Invoice}
    (rows : db'.invoices.rows = db.invoices.rows.map change)
    (sameId : ∀ invoice, (change invoice).id = invoice.id)
    (moves : ∀ invoice ∈ db.invoices.rows, Moves byReorg invoice.status (change invoice).status) :
    StatusesMove byReorg db db' := by
  intro invoice mem
  exact ⟨change invoice, rows ▸ List.mem_map_of_mem mem, sameId invoice, moves invoice mem⟩

theorem Moves.of_payable {status later : InvoiceStatus} (payable : isPayable status = true) :
    Moves byReorg status later := by
  cases status <;> simp [isPayable] at payable <;> constructor <;> simp

/-- The trigger moves pending invoices only. -/
theorem statusesMove_of_recorded {now : Time} {row : Payment} {rows : List Payment}
    (recorded : Recorded now row rows db db') : StatusesMove byReorg db db' := by
  obtain ⟨total, -, isInvoices⟩ := recorded.invoices
  refine .of_map isInvoices (Invoice.id_onPayment now row total) fun invoice _ => ?_
  unfold Invoice.onPayment
  split
  · simp only
    split
    next pending => exact .of_payable (by rw [pending.1]; rfl)
    · exact .refl _
  · exact .refl _

variable {seen decided : InvoiceStatus}

theorem statusesMove_of_update {invoiceId : Uuid} (premised : OpenOrAsRead invoiceId seen db)
    (moves : Moves byReorg seen decided) (done : updateStatus invoiceId decided db = .ok ((), db')) :
    StatusesMove byReorg db db' := by
  refine .of_map (updateStatus_ok done).invoices (Invoice.id_withStatus invoiceId decided) ?_
  intro invoice mem
  unfold Invoice.withStatus
  split
  next same =>
    rcases premised invoice mem same with payable | asRead
    · exact .of_payable payable
    · rw [asRead]
      exact moves
  · exact .refl _

theorem statusesMove_of_expire (id : Uuid) (db : Db) : StatusesMove byReorg db (expire id db) := by
  refine .of_map rfl ?_ fun invoice _ => ?_
  · intro invoice
    split
    · exact Invoice.id_withStatus id .expired invoice
    · rfl
  split
  next payable =>
    refine .of_payable ?_
    rcases payable with is | is | is <;> rw [is] <;> rfl
  · exact .refl _

theorem moves_of_settled (settles : settledStatus seen = some decided) : Moves byReorg seen decided := by
  rcases settledStatus_some settles with ⟨rfl | rfl, _⟩ | ⟨rfl, rfl⟩
  · exact .of_payable rfl
  · exact .of_payable rfl
  · exact ⟨by simp, fun _ => .inr rfl, by simp⟩

theorem moves_of_open (reorg : byReorg) (isOpen : isClosed seen = false) : Moves byReorg seen decided := by
  cases seen <;> simp [isClosed] at isOpen <;> constructor <;> simp [reorg]

/-! ## The writers keep to it -/

theorem statusesMove_of_call {event : MonitorEvent} (call : Interleaved.Call OpenOrAsRead event db db') :
    StatusesMove (∃ reorg, event = .reorgDetected reorg) db db' := by
  cases call with
  | filed done =>
    obtain ⟨row, -, upserted⟩ := upsertWithTxIndexAndObligation_ok done
    cases upserted with
    | updated existing mem same recorded => exact statusesMove_of_recorded recorded
    | inserted freshKey freshId recorded => exact statusesMove_of_recorded recorded
  | marked done =>
    obtain ⟨row, -, -, -, recorded⟩ := markConfirmed_ok done
    exact statusesMove_of_recorded recorded
  | noted done =>
    have same := (recordSettlementAllowance_ok done).invoices
    intro invoice mem
    exact ⟨invoice, same ▸ mem, rfl, .refl _⟩
  | settled settles premised done => exact statusesMove_of_update premised (moves_of_settled settles) done
  | retracted done =>
    rcases markPaymentReorged_ok done with ⟨rfl, -⟩ | ⟨row, -, -, -, recorded⟩
    · exact .refl _
    · exact statusesMove_of_recorded recorded
  | reopened isOpen isStatus premised done =>
    exact statusesMove_of_update premised (moves_of_open ⟨_, rfl⟩ isOpen) done

section Contracts

variable {divide : Division}

/-- What the threads of the writers promise. -/
abbrev closingSpec (divide : Division) : Service.Spec (closingDesk divide) :=
  .plain _ (fun _ => True) fun request => StatusesMove request.IsReorg

theorem apply_meets (delivery : Delivery) (event : MonitorEvent) (i : Nat) (db : Db) :
    ((closingDesk divide).body (.apply delivery event) i).Respects
      ((closingSpec divide).contract (.apply delivery event) i) db := by
  refine (Interleaved.handleEvent_writes StatusesMove.refl (fun _ _ _ => .inl trivial) statusesMove_of_call
    delivery).embed_meets ?_ db
  intro db db' _ moves invoice mem
  obtain ⟨later, memLater, same, moved⟩ := moves invoice mem
  refine ⟨later, memLater, same, moved.closed, moved.expired, fun isPaid => ?_⟩
  rcases moved.paid isPaid with stays | ⟨reorg, rfl⟩
  · exact .inl stays
  · exact .inr ⟨delivery, reorg, rfl⟩

theorem cancelInvoice_writes {R : Db → Db → Prop} {relied : Uuid → InvoiceStatus → Db → Prop} {assumes : Prop}
    (kept : ∀ db, R db db) (sure : ∀ id status db, assumes ∨ relied id status db) {invoiceId : Uuid}
    (cancels : ∀ {seen db db'}, isPayable seen = true → relied invoiceId seen db →
      updateStatus invoiceId .cancelled db = .ok ((), db') → R db db') :
    (cancelInvoice relied invoiceId).Writes R assumes := by
  refine .bind (.query kept _) fun found => ?_
  cases found with
  | none => exact .fail _
  | some invoice =>
    simp only
    split
    next payable =>
      refine .bind (.statement kept ?_) fun _ => .bind (.attempt (.query kept _)) fun _ =>
        .bind (.attempt (.query kept _)) fun _ => .pure _
      intro _ db _ db' premised done
      exact cancels payable ((sure _ _ _).elim premised id) (mapError_eq_ok done)
    · exact .fail _

theorem checkExpired_writes {ε : Type} {R : Db → Db → Prop} {assumes : Prop} (kept : ∀ db, R db db)
    (expires : ∀ id db, R db (expire id db)) : (checkExpired : Thread Time ε Db Unit).Writes R assumes := by
  unfold checkExpired
  refine .bind (.attempt (.statement kept ?_)) fun found => ?_
  · rintro _ db _ db' - ⟨⟩
    exact kept db
  cases found with
  | error _ => exact .pure _
  | ok ids =>
    refine .forM (fun id => .bind (.attempt (.statement kept ?_)) fun _ => .pure _) _
    rintro _ db _ db' - ⟨⟩
    exact expires id db

theorem closing_sound : (closingSpec divide).Sound := by
  refine .plain (fun _ => trivial) (fun _ _ => trivial) ?_
  intro request i db _
  cases request with
  | apply delivery event => exact apply_meets delivery event i db
  | cancel invoiceId =>
    simp only [closingDesk]
    rw [Thread.meets_bind]
    have cancels : (cancelInvoice OpenOrAsRead invoiceId).Writes
        (StatusesMove (ClosingRequest.cancel invoiceId).IsReorg) :=
      cancelInvoice_writes StatusesMove.refl (fun _ _ _ => .inl trivial) fun payable premised done =>
        statusesMove_of_update premised (.of_payable payable) done
    exact cancels.embed_meets (fun _ => id) db
  | checkExpired =>
    exact (checkExpired_writes StatusesMove.refl statusesMove_of_expire).meets (fun _ moves => moves) db

end Contracts

/-! ## Every run -/

def ClosedStay (db db' : Db) : Prop :=
  ∀ invoice ∈ db.invoices.rows, ∃ later ∈ db'.invoices.rows, later.id = invoice.id ∧
    (invoice.status = .cancelled ∨ invoice.status = .refunded ∨ invoice.status = .latePaid →
      later.status = invoice.status) ∧
    (invoice.status = .expired → later.status = .expired ∨ later.status = .latePaid)

theorem StatusesMove.closedStay (moves : StatusesMove byReorg db db') : ClosedStay db db' := by
  intro invoice mem
  obtain ⟨later, memLater, same, moved⟩ := moves invoice mem
  exact ⟨later, memLater, same, moved.closed, moved.expired⟩

theorem ClosedStay.trans {first second third : Db} (early : ClosedStay first second)
    (late : ClosedStay second third) : ClosedStay first third := by
  intro invoice mem
  obtain ⟨later, memLater, sameLater, closed, expired⟩ := early invoice mem
  obtain ⟨last, memLast, sameLast, closedLater, expiredLater⟩ := late later memLater
  refine ⟨last, memLast, sameLast.trans sameLater, ?_, ?_⟩
  · intro isClosed
    rw [closedLater (by rwa [closed isClosed]), closed isClosed]
  · intro isExpired
    rcases expired isExpired with still | paidLate
    · exact expiredLater still
    · exact .inr ((closedLater (.inr (.inr paidLate))).trans paidLate)

abbrev ClosingPool : Type := Pool ClosingRequest Time ServerError Db Unit

/-- The step is a statement of an application of a reorganisation. -/
def ByReorg (pool : ClosingPool) (action : PoolAction ClosingRequest Time ServerError) : Prop :=
  ∃ index answer running, action = .run index answer ∧ pool.running[index]? = some running ∧
    running.request.IsReorg

theorem statusesMove_of_step {divide : Division} {pool pool' : ClosingPool}
    {action : PoolAction ClosingRequest Time ServerError}
    (reached : (closingDesk divide).timely.Reachable pool)
    (step : (closingDesk divide).timely.step pool action pool') :
    StatusesMove (ByReorg pool action) pool.shared pool'.shared := by
  cases action with
  | start request =>
    obtain ⟨⟨-, rfl⟩, -⟩ := step
    exact .refl _
  | run index answer =>
    rcases (closing_sound.holds reached).guarantees closing_sound step.1 fun _ => step.2 with
      same | ⟨running, here, moves⟩
    · rw [same]
      exact .refl _
    · intro invoice mem
      obtain ⟨later, memLater, same, moved⟩ := moves invoice mem
      refine ⟨later, memLater, same, moved.closed, moved.expired, fun isPaid => ?_⟩
      exact (moved.paid isPaid).imp id fun isReorg => ⟨index, answer, running, rfl, here, isReorg⟩

/--
Closed invoices stay closed, in every run in which no invoice is closed between
the read of its status and the write of what was decided from it: cancelled,
refunded and late-paid invoices keep their status, expired ones are at most paid
late, and only a reorganisation moves a paid one.
-/
theorem closed_invoices_stay_closed {divide : Division} {pool pool' : ClosingPool}
    (reached : (closingDesk divide).timely.Reachable pool)
    (run : (closingDesk divide).timely.Run pool pool') :
    ClosedStay pool.shared pool'.shared ∧
      ∀ action pool'', (closingDesk divide).timely.step pool' action pool'' →
        ∀ invoice ∈ pool'.shared.invoices.rows, invoice.status = .paid →
          ∃ later ∈ pool''.shared.invoices.rows, later.id = invoice.id ∧
            (later.status = .paid ∨ ByReorg pool' action) := by
  constructor
  · induction run with
    | refl => exact fun invoice mem => ⟨invoice, mem, rfl, fun _ => rfl, Or.inl⟩
    | tail before move ih =>
      obtain ⟨action, step⟩ := move
      exact ih.trans (statusesMove_of_step (reached.run before) step).closedStay
  · intro action pool'' step invoice mem isPaid
    obtain ⟨later, memLater, same, moved⟩ := statusesMove_of_step (reached.run run) step invoice mem
    exact ⟨later, memLater, same, moved.paid isPaid⟩

/-- One open invoice that is past its expiry. -/
def overdueDb : Db :=
  { Db.empty with
    invoices := ⟨[⟨1, 10, ⟨11, by decide⟩, 0, .pending, 100⟩], by decide⟩
    paymentInvoice := by simp [Db.empty]
    optionInvoice := by simp [Db.empty] }

/-- A cancellation reads the open invoice, and the expiry job expires it. -/
def expiredPool : ClosingPool :=
  (closingDesk (· / ·)).after overdueDb
    [.start (.cancel 1), .start .checkExpired, .run 0 (.ok 200), .run 1 (.ok 200), .run 1 (.ok 200)]

/-- The cancellation writes what it decided. -/
def cancelledPool : ClosingPool :=
  expiredPool.perform (closingDesk (· / ·)).body (.run 0 (.ok 200))

theorem expiredPool_reopened :
    (closingDesk (· / ·)).system.Reachable expiredPool ∧
      (closingDesk (· / ·)).system.Run expiredPool cancelledPool ∧
      ¬ ClosedStay expiredPool.shared cancelledPool.shared := by
  refine ⟨Service.reachable_of_answered trivial (fun _ => trivial) (by decide), ?_, ?_⟩
  · have step : (closingDesk (· / ·)).system.step expiredPool (.run 0 (.ok 200)) cancelledPool :=
      ⟨trivial, rfl⟩
    exact (System.Run.refl _).snoc step
  intro stays
  obtain ⟨later, mem, -, -, expired⟩ := stays ⟨1, 10, ⟨11, by decide⟩, 0, .expired, 100⟩
    (List.mem_singleton.mpr rfl)
  rw [List.mem_singleton.mp mem] at expired
  exact absurd (expired rfl) (by decide)

/-- A cancellation that nothing overtakes; the expiry job then finds nothing to expire. -/
def cancelledAlone : ClosingPool :=
  (closingDesk (· / ·)).after overdueDb [.start (.cancel 1), .run 0 (.ok 50), .run 0 (.ok 50)]

theorem cancelledAlone_stays :
    cancelledAlone.shared.invoices.rows.map Invoice.status = [.cancelled] ∧
      ClosedStay cancelledAlone.shared
        ([.start .checkExpired, .run 1 (.ok 200)].foldl (Pool.perform (closingDesk (· / ·)).body)
          cancelledAlone).shared := by
  have reached : (closingDesk (· / ·)).timely.Reachable cancelledAlone := by
    refine Service.timely_of_path trivial ?_
    repeat' apply And.intro
    all_goals try first | trivial | (rintro running ⟨⟩; trivial)
    rintro running ⟨⟩ invoice mem -
    rw [List.mem_singleton.mp mem]
    exact .inl rfl
  refine ⟨rfl, (closed_invoices_stay_closed reached (System.Path.run ?_)).1⟩
  repeat' apply And.intro
  all_goals first | trivial | (rintro running ⟨⟩; trivial)

end EthPayServer.Api
