import EthPayServer.Api.Listing
import EthPayServer.Consumer.Redelivery
import EthPayServer.Consumer.Threads

/-!
# Reconciliation of the own store's payments

`services/plugins/reconcile.rs`.  A plugin that was not there when an invoice
of the instance's own store settled is told later: every few minutes a pass
reads which invoices have settled and hands each of them to every observer.
The read selects by the time an invoice was created, a day back, while invoices
may be payable for longer than that.
-/

namespace EthPayServer.Plugins

open Lib Data Consumer Api
open Evm (Time Uuid MonitorEvent)

/-! ## The pass -/

/-- `DEFAULT_INTERVAL`, in seconds. -/
def defaultInterval : Nat := 5 * 60

/-- `DEFAULT_LOOKBACK`, in seconds. -/
def defaultLookback : Nat := 24 * 60 * 60

/-- `DEFAULT_LIMIT`. -/
def defaultLimit : Nat := 500

structure OwnStorePayment where
  invoiceId : Uuid
  currency : Text
  amountReceived : Numeric 78 18
  status : InvoiceStatus
  settledAt : Time
deriving DecidableEq

def OwnStorePayment.fromInvoice (invoice : Invoice) (currency : Text) (settledAt : Time) : OwnStorePayment :=
  ⟨invoice.id, currency, invoice.amountReceived, invoice.status, settledAt⟩

structure Handed where
  pass : Nat
  observer : Nat
  payment : OwnStorePayment
deriving DecidableEq

/-- The tables, and what the observers were told. -/
structure Till where
  registry : Registry
  handed : List Handed

abbrev TillT : Type → Type := Thread Time Rejection Till

def tillView : Thread.View Registry Rejection Till Rejection where
  part := Till.registry
  replace registry till := { till with registry := registry }
  fault := id
  report := id

section Pass

variable (queries : Queries) (ownStoreId : Uuid)

def settledParams (createdSince : Time) (limit : Nat) (status : InvoiceStatus) : InvoiceQueryParams where
  storeId := some ownStoreId
  storeIds := none
  status := some status
  currency := none
  search := none
  createdAfter := some createdSince
  createdBefore := none
  limit := limit
  offset := 0

/-- What the query matches, as payments; the time of the settlement is not stored. -/
def settledMatching (createdSince : Time) (limit : Nat) (status : InvoiceStatus) (registry : Registry) :
    List OwnStorePayment :=
  ((settledParams ownStoreId createdSince limit status).matching queries registry).map fun invoice =>
    .fromInvoice invoice (registry.invoiceColumns invoice.id).currency
      (registry.invoiceColumns invoice.id).createdAt

def settledPage (createdSince : Time) (limit : Nat) (status : InvoiceStatus) : AuthT (List OwnStorePayment) := do
  let (_, page) ← selectPage (settledMatching queries ownStoreId createdSince limit status) limit 0
  pure page

/-- The payments of both statuses, newest first and cut at the limit. -/
def newestFirst (limit : Nat) (payments : List OwnStorePayment) : List OwnStorePayment :=
  (payments.insertionSort fun payment other => other.settledAt ≤ payment.settledAt).take limit

def settledSince (createdSince : Time) (limit : Nat) : AuthT (List OwnStorePayment) := do
  let paid ← settledPage queries ownStoreId createdSince limit .paid
  let latePaid ← settledPage queries ownStoreId createdSince limit .latePaid
  pure (newestFirst limit (paid ++ latePaid))

/-- `payment_settled`: nothing comes back, and nothing can fail. -/
def paymentSettled (pass observer : Nat) (payment : OwnStorePayment) : TillT PUnit :=
  Thread.call (fun _ => True) (fun _ till => { till with handed := till.handed ++ [⟨pass, observer, payment⟩] })
    fun _ _ => pure ()

def couldNotRead : String := "could not read settled own-store payments; will retry"

def hitItsLimit : String := "reconciliation hit its limit; older settled invoices in the window were not read"

/-- How many payments were handed on, and the warnings that were logged. -/
structure Outcome where
  dispatched : Nat
  warnings : List String
deriving DecidableEq

def dispatch (observers pass : Nat) (settled : List OwnStorePayment) : TillT PUnit :=
  forM settled fun payment => forM (List.range observers) fun observer => paymentSettled pass observer payment

/-- The pass that starts at a time; its read relies on what the tables hold. -/
def reconcileOnce (relied : Registry → Prop) (observers lookback limit pass : Nat) (now : Time) :
    TillT Outcome :=
  if observers = 0 then pure ⟨0, []⟩
  else do
    let read := (settledSince queries ownStoreId (now - lookback) limit).relying relied
    match ← (read.embed tillView).attempt with
    | .error _ => pure ⟨0, [couldNotRead]⟩
    | .ok settled => do
      dispatch observers pass settled
      pure ⟨settled.length, if limit ≤ settled.length then [hitItsLimit] else []⟩

end Pass

/-! ## Beside the consumer -/

structure InvoiceDraft where
  id : Uuid
  storeId : Uuid
  currency : Text
  amount : ℚ
  expirationSeconds : Option Nat

inductive TillRequest where
  | createInvoice (draft : InvoiceDraft) (options : List PaymentOptionData)
  | apply (delivery : Delivery) (event : MonitorEvent)
  | expire (invoiceId : Uuid)
  /-- a pass that starts at a time -/
  | reconcile (now : Time)

/-- The tables with other payment tables. -/
def withDb (registry : Registry) (db : Db) : Registry :=
  { registry with ledger := { registry.ledger with db := db } }

/-- The transaction of `create_invoice`; the expiry is whatever the request says. -/
def createInvoice (defaultExpirationSecs : Nat) (draft : InvoiceDraft) (options : List PaymentOptionData) :
    TillT Unit :=
  Thread.statement fun now till =>
    if draft.storeId ∈ till.registry.ledger.stores.keys then
      match createInvoiceWithOptions ⟨draft.id, draft.storeId, draft.amount,
          now + draft.expirationSeconds.getD defaultExpirationSecs⟩ options till.registry.ledger.db with
      | .ok db => .ok ((), { till with registry := { withDb till.registry db with
          invoiceColumns := Function.update till.registry.invoiceColumns draft.id ⟨draft.currency, now⟩ } })
      | .error _ => .error ⟨.internalServerError, ""⟩
    else .error ⟨.notFound, ""⟩

def consumerView : Thread.View Db EventConsumerError Till Rejection where
  part till := till.registry.ledger.db
  replace db till := { till with registry := withDb till.registry db }
  fault _ := .stopped
  report _ := ⟨.internalServerError, ""⟩

def expireInvoice (invoiceId : Uuid) : TillT Unit :=
  Thread.statement fun _ till =>
    .ok ((), { till with registry := withDb till.registry (expire invoiceId till.registry.ledger.db) })

structure Aim where
  pass : Nat
  invoiceId : Uuid
  createdAt : Time
  status : InvoiceStatus
  settled : List (Uuid × InvoiceStatus)

/-- The invoice is as the consumer left it, and the settled invoices of the store are among those named. -/
structure Aim.Standing (aim : Aim) (ownStoreId : Uuid) (registry : Registry) : Prop where
  invoice : ∃ invoice ∈ registry.ledger.db.invoices.rows, invoice.id = aim.invoiceId ∧
    invoice.storeId = ownStoreId ∧ invoice.status = aim.status
  createdAt : (registry.invoiceColumns aim.invoiceId).createdAt = aim.createdAt
  settled : ∀ invoice ∈ registry.ledger.db.invoices.rows, invoice.storeId = ownStoreId →
    invoice.status = .paid ∨ invoice.status = .latePaid → (invoice.id, invoice.status) ∈ aim.settled

section Service

variable (queries : Queries) (ownStoreId : Uuid) (observers defaultExpirationSecs : Nat) (divide : Division)

def quiet {σ : Type} (thread : Thread Time Rejection σ Unit) : Thread Time Rejection σ Outcome := do
  thread
  pure ⟨0, []⟩

/-- The read of the pass at the position of the aim relies on the invoice's standing. -/
def tillDesk (aim : Aim) : Service TillRequest Time Rejection Till Outcome where
  initial till := till.handed = []
  legal _ _ := True
  body request index :=
    match request with
    | .createInvoice draft options => quiet (createInvoice defaultExpirationSecs draft options)
    | .apply delivery event =>
      quiet ((Interleaved.handleEvent (fun _ _ _ => True) divide delivery event).embed consumerView)
    | .expire invoiceId => quiet (expireInvoice invoiceId)
    | .reconcile now =>
      reconcileOnce queries ownStoreId (fun registry => index = aim.pass → aim.Standing ownStoreId registry)
        observers defaultLookback defaultLimit index now

end Service

/-! ## What a pass reads -/

variable {aim : Aim} {contract : Thread.Contract Time Rejection Registry}

section Reads

variable {queries : Queries} {ownStoreId : Uuid} {createdSince : Time} {limit : Nat} {status : InvoiceStatus}
  {registry : Registry}

theorem mem_settledMatching {payment : OwnStorePayment} :
    payment ∈ settledMatching queries ownStoreId createdSince limit status registry ↔
      ∃ invoice ∈ registry.ledger.db.invoices.rows, invoice.storeId = ownStoreId ∧ invoice.status = status ∧
        createdSince ≤ (registry.invoiceColumns invoice.id).createdAt ∧
        OwnStorePayment.fromInvoice invoice (registry.invoiceColumns invoice.id).currency
          (registry.invoiceColumns invoice.id).createdAt = payment := by
  simp only [settledMatching, InvoiceQueryParams.matching, settledParams, List.mem_map,
    List.mem_insertionSort, List.mem_filter, InvoiceQueryParams.admits, Option.all_some, Option.all_none,
    Bool.and_true, Bool.and_eq_true, decide_eq_true_eq, and_assoc]

/-- No invoice is read twice by one query. -/
theorem nodup_settledMatching :
    ((settledMatching queries ownStoreId createdSince limit status registry).map
      OwnStorePayment.invoiceId).Nodup := by
  have distinct : (registry.ledger.db.invoices.rows.map Invoice.id).Nodup := registry.ledger.db.invoices.nodup
  rw [settledMatching, List.map_map]
  refine List.Perm.nodup (List.Perm.map _ (List.perm_insertionSort _ _)).symm ?_
  exact distinct.sublist (List.filter_sublist.map _)

def OwnStorePayment.entry (payment : OwnStorePayment) : Uuid × InvoiceStatus :=
  (payment.invoiceId, payment.status)

/-- Payments with different entries, all of them named by the aim, are fewer than the limit. -/
theorem Aim.length_lt (few : aim.settled.length < limit) {payments : List OwnStorePayment}
    (nodup : (payments.map OwnStorePayment.entry).Nodup)
    (listed : ∀ payment ∈ payments, payment.entry ∈ aim.settled) : payments.length < limit := by
  have inside : payments.map OwnStorePayment.entry ⊆ aim.settled := by
    intro entry mem
    obtain ⟨payment, here, rfl⟩ := List.mem_map.mp mem
    exact listed payment here
  have bounded := (nodup.subperm inside).length_le
  rw [List.length_map] at bounded
  exact bounded.trans_lt few

structure Aim.Shown (aim : Aim) (status : InvoiceStatus) (page : List OwnStorePayment) : Prop where
  nodup : (page.map OwnStorePayment.entry).Nodup
  listed : ∀ payment ∈ page, payment.status = status ∧ payment.entry ∈ aim.settled
  found : aim.status = status → ∃ payment ∈ page, payment.entry = (aim.invoiceId, aim.status)

theorem Aim.Standing.shown (standing : aim.Standing ownStoreId registry) (few : aim.settled.length < limit)
    (inWindow : createdSince ≤ aim.createdAt) (settles : status = .paid ∨ status = .latePaid) :
    aim.Shown status
      ((settledMatching queries ownStoreId createdSince limit status registry).take limit) := by
  have nodup : ((settledMatching queries ownStoreId createdSince limit status registry).map
      OwnStorePayment.entry).Nodup := by
    refine List.Nodup.of_map Prod.fst ?_
    rw [List.map_map]
    exact nodup_settledMatching
  have listed : ∀ payment ∈ settledMatching queries ownStoreId createdSince limit status registry,
      payment.status = status ∧ payment.entry ∈ aim.settled := by
    intro payment mem
    obtain ⟨invoice, here, own, isStatus, -, rfl⟩ := mem_settledMatching.mp mem
    exact ⟨isStatus, standing.settled invoice here own (by rwa [isStatus])⟩
  rw [List.take_of_length_le (aim.length_lt few nodup fun payment mem => (listed payment mem).2).le]
  refine ⟨nodup, listed, ?_⟩
  intro isStatus
  obtain ⟨invoice, here, isInvoice, own, settled⟩ := standing.invoice
  refine ⟨.fromInvoice invoice (registry.invoiceColumns invoice.id).currency
    (registry.invoiceColumns invoice.id).createdAt, ?_, ?_⟩
  · refine mem_settledMatching.mpr ⟨invoice, here, own, settled.trans isStatus, ?_, rfl⟩
    rw [isInvoice, standing.createdAt]
    exact inWindow
  · exact Prod.ext isInvoice settled

/-- Two pages of different statuses, put in order, are not cut by the limit. -/
theorem Aim.Shown.kept {paid latePaid : List OwnStorePayment} (first : aim.Shown .paid paid)
    (second : aim.Shown .latePaid latePaid) (few : aim.settled.length < limit)
    (settles : aim.status = .paid ∨ aim.status = .latePaid) :
    ∃ payment ∈ newestFirst limit (paid ++ latePaid), payment.entry = (aim.invoiceId, aim.status) := by
  have nodup : ((paid ++ latePaid).map OwnStorePayment.entry).Nodup := by
    rw [List.map_append]
    refine first.nodup.append second.nodup ?_
    intro entry inFirst inSecond
    obtain ⟨payment, here, rfl⟩ := List.mem_map.mp inFirst
    obtain ⟨other, there, same⟩ := List.mem_map.mp inSecond
    have statuses := congrArg Prod.snd same
    simp only [OwnStorePayment.entry, (first.listed payment here).1, (second.listed other there).1] at statuses
    cases statuses
  have short : (paid ++ latePaid).length < limit := by
    refine aim.length_lt few nodup ?_
    intro payment mem
    rcases List.mem_append.mp mem with here | here
    · exact (first.listed payment here).2
    · exact (second.listed payment here).2
  rw [newestFirst, List.take_of_length_le (by rw [List.length_insertionSort]; exact short.le)]
  simp only [List.mem_insertionSort, List.mem_append]
  rcases settles with isPaid | isLate
  · obtain ⟨payment, here, isAim⟩ := first.found isPaid
    exact ⟨payment, .inl here, isAim⟩
  · obtain ⟨payment, here, isAim⟩ := second.found isLate
    exact ⟨payment, .inr here, isAim⟩

theorem settledPage_meets (kept : ∀ registry, contract.guarantee registry registry) (registry : Registry) :
    (settledPage queries ownStoreId createdSince limit status).Meets contract
      (fun page _ => ∃ read, contract.invariant read ∧
        page = (settledMatching queries ownStoreId createdSince limit status read).take limit)
      (fun _ _ => True) registry := by
  simp only [settledPage, selectPage, bind_assoc]
  refine (lookUp_meets kept _ "" registry).bind ?_
  rintro ⟨total, _⟩ counted -
  refine (lookUp_meets kept _ "" counted).bind ?_
  rintro ⟨rows, _⟩ read ⟨isRows, -, holds⟩
  obtain rfl : rows = some _ := isRows
  exact ⟨read, holds, rfl⟩

/-- The two pages are read one after the other, each from the tables of its moment. -/
theorem settledSince_meets (kept : ∀ registry, contract.guarantee registry registry) (registry : Registry) :
    (settledSince queries ownStoreId createdSince limit).Meets contract
      (fun settled _ => ∃ read reread, contract.invariant read ∧ contract.invariant reread ∧
        settled = newestFirst limit
          ((settledMatching queries ownStoreId createdSince limit .paid read).take limit ++
            (settledMatching queries ownStoreId createdSince limit .latePaid reread).take limit))
      (fun _ _ => True) registry := by
  refine (settledPage_meets kept registry).bind ?_
  rintro paid between ⟨read, holds, rfl⟩
  refine (settledPage_meets kept between).bind ?_
  rintro latePaid after ⟨reread, stillHolds, rfl⟩
  exact ⟨read, reread, holds, stillHolds, rfl⟩

def readingContract : Thread.Contract Time Rejection Registry where
  legal _ _ := True
  invariant _ := True
  rely _ _ := True
  guarantee registry registry' := registry' = registry

theorem readSettled_meets {relied : Registry → Prop} (registry : Registry) :
    ((settledSince queries ownStoreId createdSince limit).relying relied).Meets readingContract
      (fun settled _ => ∃ read reread, relied read ∧ relied reread ∧
        settled = newestFirst limit
          ((settledMatching queries ownStoreId createdSince limit .paid read).take limit ++
            (settledMatching queries ownStoreId createdSince limit .latePaid reread).take limit))
      (fun _ _ => True) registry := by
  refine (Thread.Meets.relying (settledSince_meets (fun _ => rfl) registry) trivial).mono ?_ fun _ _ _ => trivial
  rintro settled _ ⟨read, reread, ⟨-, holds⟩, ⟨-, stillHolds⟩, isSettled⟩
  exact ⟨read, reread, holds, stillHolds, isSettled⟩

end Reads

/-! ## What a pass hands on -/

section Hands

/-- What the observers were told stays told. -/
def Kept (till till' : Till) : Prop := ∀ entry ∈ till.handed, entry ∈ till'.handed

theorem Kept.refl (till : Till) : Kept till till := fun _ mem => mem

theorem Kept.trans {s t u : Till} (first : Kept s t) (second : Kept t u) : Kept s u :=
  fun entry mem => second entry (first entry mem)

def handingContract : Thread.Contract Time Rejection Till where
  legal _ _ := True
  invariant _ := True
  rely := Kept
  guarantee := Kept

variable {pass observer observers : Nat} {payment : OwnStorePayment} {till : Till}

theorem paymentSettled_meets : (paymentSettled pass observer payment).Meets handingContract
    (fun _ till => ⟨pass, observer, payment⟩ ∈ till.handed) (fun _ _ => True) till := by
  intro later _ _ _ _ _
  constructor
  · intro entry mem
    exact List.mem_append_left _ mem
  · exact List.mem_append_right _ (List.mem_singleton.mpr rfl)

theorem dispatch_meets {settled : List OwnStorePayment} :
    (dispatch observers pass settled).Meets handingContract
      (fun _ till => ∀ payment ∈ settled, ∀ observer ∈ List.range observers,
        ⟨pass, observer, payment⟩ ∈ till.handed) (fun _ _ => True) till := by
  refine Thread.Meets.forM_each ?_ ?_ ?_
  · intro payment s t kept told observer mem
    exact kept _ (told observer mem)
  · intro payment s t kept told observer mem
    exact kept _ (told observer mem)
  intro payment till
  refine Thread.Meets.forM_each ?_ ?_ fun observer till => paymentSettled_meets
  · intro observer s t kept told
    exact kept _ told
  · intro observer s t kept told
    exact kept _ told

def Aim.Told (aim : Aim) (observers : Nat) (till : Till) : Prop :=
  ∀ observer < observers, ∃ payment, payment.entry = (aim.invoiceId, aim.status) ∧
    ⟨aim.pass, observer, payment⟩ ∈ till.handed

theorem Aim.Told.kept {till till' : Till} (told : aim.Told observers till) (kept : Kept till till') :
    aim.Told observers till' := by
  intro observer inside
  obtain ⟨payment, isAim, mem⟩ := told observer inside
  exact ⟨payment, isAim, kept _ mem⟩

variable {queries : Queries} {ownStoreId : Uuid} {lookback limit : Nat} {now : Time}

/--
A pass whose read goes through and finds the aim standing, inside its window,
tells every observer of the invoice.  Any other pass just adds to what was told.
-/
theorem reconcileOnce_meets (few : aim.settled.length < limit)
    (settles : aim.status = .paid ∨ aim.status = .latePaid) :
    (reconcileOnce queries ownStoreId (fun registry => pass = aim.pass → aim.Standing ownStoreId registry)
      observers lookback limit pass now).Meets handingContract
      (fun outcome till => pass = aim.pass → now ≤ aim.createdAt + lookback →
        couldNotRead ∉ outcome.warnings → aim.Told observers till) (fun _ _ => True) till := by
  unfold reconcileOnce
  split
  next none =>
    rintro - - - observer inside
    omega
  rw [Thread.meets_bind, Thread.meets_attempt]
  refine Thread.Meets.embed (fun _ _ => rfl) ?_ ?_ ?_ ?_ ?_ ?_ (readSettled_meets till.registry) id
  · intro t answer _
    trivial
  · intro t _
    trivial
  · intro t u _
    trivial
  · rintro t _ - rfl
    exact Kept.refl t
  · rintro settled read ⟨first, second, firstStands, secondStands, rfl⟩
    refine dispatch_meets.bind ?_
    intro _ done told isPass inWindow _ observer inside
    subst isPass
    have since : now - lookback ≤ aim.createdAt := Nat.sub_le_of_le_add inWindow
    obtain ⟨payment, mem, isAim⟩ := ((firstStands rfl).shown few since (.inl rfl)).kept
      ((secondStands rfl).shown few since (.inr rfl)) few settles
    exact ⟨payment, isAim, told payment mem observer (List.mem_range.mpr inside)⟩
  · intro e read _ _ _ readable
    exact absurd (List.mem_singleton.mpr rfl) readable

theorem quiet_meets {thread : TillT Unit} (writes : thread.Writes Kept) :
    (quiet thread).Respects handingContract till := by
  rw [Thread.Respects, quiet, Thread.meets_bind]
  exact writes.meets (fun _ kept => kept) till

theorem createInvoice_writes {defaultExpirationSecs : Nat} {draft : InvoiceDraft}
    {options : List PaymentOptionData} : (createInvoice defaultExpirationSecs draft options).Writes Kept := by
  refine .statement Kept.refl ?_
  intro now before _ after _ done
  dsimp only at done
  split at done
  · split at done <;> cases done
    exact Kept.refl before
  · cases done

theorem expireInvoice_writes {invoiceId : Uuid} : (expireInvoice invoiceId).Writes Kept := by
  refine .statement Kept.refl ?_
  rintro now before _ after - ⟨⟩
  exact Kept.refl before

end Hands

section Runs

variable (queries : Queries) (ownStoreId : Uuid) (observers defaultExpirationSecs : Nat) (divide : Division)

def tillSpec (aim : Aim) : (tillDesk queries ownStoreId observers defaultExpirationSecs divide aim).Spec where
  invariant _ := True
  rely _ := Kept
  guarantee _ _ := Kept
  fresh _ _ := True
  post request index outcome till :=
    match request with
    | .reconcile now => index = aim.pass → now ≤ aim.createdAt + defaultLookback →
        couldNotRead ∉ outcome.warnings → aim.Told observers till
    | _ => True
  failure _ _ _ _ := True

theorem till_sound (few : aim.settled.length < defaultLimit)
    (settles : aim.status = .paid ∨ aim.status = .latePaid) :
    (tillSpec queries ownStoreId observers defaultExpirationSecs divide aim).Sound where
  initially _ := ⟨trivial, fun _ => trivial⟩
  refl _ := Kept.refl
  trans := Kept.trans
  keeps _ _ := trivial
  compatible _ _ kept := kept
  freshKept _ _ _ := trivial
  postStable {request i outcome s t} kept holds := by
    cases request with
    | reconcile now =>
      intro isPass inWindow readable
      exact Aim.Told.kept (holds isPass inWindow readable) kept
    | createInvoice => trivial
    | apply => trivial
    | expire => trivial
  failureStable _ _ := trivial
  meets {request i s} _ _ := by
    cases request with
    | createInvoice draft options => exact quiet_meets createInvoice_writes
    | apply delivery event => exact quiet_meets ((Thread.Writes.any _).embed fun _ => Kept.refl _)
    | expire invoiceId => exact quiet_meets expireInvoice_writes
    | reconcile now => exact reconcileOnce_meets few settles

/--
A pass whose read goes through tells every observer of a settled invoice of the
own store, if the invoice is still as it settled when the pass reads, the pass
starts no more than the lookback after the invoice was created, and the store
has fewer settled invoices than the limit.
-/
theorem settled_invoice_reconciled {aim : Aim} (few : aim.settled.length < defaultLimit)
    (settles : aim.status = .paid ∨ aim.status = .latePaid)
    {pool : Pool TillRequest Time Rejection Till Outcome}
    (reached : (tillDesk queries ownStoreId observers defaultExpirationSecs divide aim).timely.Reachable pool)
    {now : Time} {outcome : Outcome}
    (asked : pool.running[aim.pass]?.map Running.request = some (.reconcile now))
    (ended : pool.result aim.pass = some (.ok outcome))
    (readable : couldNotRead ∉ outcome.warnings) (inWindow : now ≤ aim.createdAt + defaultLookback) :
    aim.Told observers pool.shared := by
  have sound := till_sound queries ownStoreId observers defaultExpirationSecs divide few settles
  obtain ⟨request, here⟩ := Pool.running_of_result ended
  rw [here] at asked
  cases asked
  exact (sound.holds reached).meets aim.pass _ here rfl inWindow readable

end Runs

/-! ## Two invoices that no observer hears of -/

instance (aim : Aim) (ownStoreId : Uuid) (registry : Registry) : Decidable (aim.Standing ownStoreId registry) :=
  decidable_of_iff
    ((∃ invoice ∈ registry.ledger.db.invoices.rows, invoice.id = aim.invoiceId ∧
        invoice.storeId = ownStoreId ∧ invoice.status = aim.status) ∧
      (registry.invoiceColumns aim.invoiceId).createdAt = aim.createdAt ∧
      ∀ invoice ∈ registry.ledger.db.invoices.rows, invoice.storeId = ownStoreId →
        invoice.status = .paid ∨ invoice.status = .latePaid → (invoice.id, invoice.status) ∈ aim.settled)
    ⟨fun ⟨invoice, createdAt, settled⟩ => ⟨invoice, createdAt, settled⟩,
      fun ⟨invoice, createdAt, settled⟩ => ⟨invoice, createdAt, settled⟩⟩

def plainQueries : Queries := ⟨fun _ => none, fun _ _ _ => false, fun _ _ => false⟩

/-- The instance's own store, without invoices. -/
def openTill : Till where
  registry :=
    { Registry.empty with
      ledger := { Ledger.empty with stores := .single ⟨1, 1⟩ }
      keyOwner := Registry.empty.keyOwner
      sessionOwner := Registry.empty.sessionOwner }
  handed := []

/-- Invoice 1, created at 0 and paid, and a pass. -/
def aimAt (pass : Nat) : Aim := ⟨pass, 1, 0, .paid, [(1, .paid)]⟩

abbrev sampleDesk (pass : Nat) : Service TillRequest Time Rejection Till Outcome :=
  tillDesk plainQueries 1 1 900 (· / ·) (aimAt pass)

def served (index calls : Nat) (time : Time) (request : TillRequest) :
    List (PoolAction TillRequest Time Rejection) :=
  .start request :: List.replicate calls (.run index (.ok time))

def settling (expirationSeconds : Option Nat) (paidAt : Time) : List (PoolAction TillRequest Time Rejection) :=
  served 0 1 0 (.createInvoice ⟨1, 1, [], 1, expirationSeconds⟩ [sampleOption]) ++
    served 1 8 paidAt (.apply (sampleDelivery 1) (.paymentDetected (sampleDetected 7 (10 ^ 18)))) ++
    served 2 8 paidAt (.apply (sampleDelivery 2) (.paymentConfirmed (sampleConfirmed 7 (10 ^ 18))))

/-- Block 10, which holds the payment, is replaced by one that does not. -/
def paymentReorged : MonitorEvent :=
  .reorgDetected ⟨1, 10, 8, 9, 1, [1], [], true, 0⟩

def statusIn (till : Till) : Option InvoiceStatus :=
  (till.registry.ledger.db.invoices.find? 1).map Invoice.status

/-- The invoice is paid after some actions, and the pass soon after it reads, and hands on nothing. -/
structure Missed (pass : Nat) (paidAt startsAt : Time)
    (before between : List (PoolAction TillRequest Time Rejection)) : Prop where
  paid : statusIn ((sampleDesk pass).after openTill before).shared = some .paid
  soon : paidAt ≤ startsAt ∧ startsAt ≤ paidAt + defaultInterval
  reached : (sampleDesk pass).system.Reachable ((sampleDesk pass).after openTill
    (before ++ between ++ served pass 4 startsAt (.reconcile startsAt)))
  readable : ((sampleDesk pass).after openTill
    (before ++ between ++ served pass 4 startsAt (.reconcile startsAt))).result pass = some (.ok ⟨0, []⟩)
  silent : ((sampleDesk pass).after openTill
    (before ++ between ++ served pass 4 startsAt (.reconcile startsAt))).shared.handed = []

/--
An invoice payable for two days and paid an hour into the second is outside the
window of the pass a minute later.  One paid in time, whose payment is reorged
away before the pass, is no longer settled when the pass reads.
-/
theorem settled_invoice_missed :
    Missed 3 90000 90060 (settling (some (2 * 24 * 60 * 60)) 90000) [] ∧
      Missed 4 60 120 (settling none 60) (served 3 8 90 (.apply (sampleDelivery 3) paymentReorged)) := by
  constructor
  · exact ⟨by decide +kernel, by decide, Service.reachable_of_answered rfl (fun _ => trivial) (by decide),
      by decide +kernel, by decide +kernel⟩
  · exact ⟨by decide +kernel, by decide, Service.reachable_of_answered rfl (fun _ => trivial) (by decide),
      by decide +kernel, by decide +kernel⟩

def paidDb : Db :=
  { Db.empty with
    invoices := ⟨[⟨1, 1, ⟨10 ^ 18, by decide⟩, ⟨10 ^ 18, by decide⟩, .paid, 900⟩], by decide⟩
    paymentInvoice := by simp [Db.empty]
    optionInvoice := by simp [Db.empty] }

def paidTill : Till := { openTill with registry := withDb openTill.registry paidDb }

/-- A pass a minute later, to its end. -/
def reconciled : Pool TillRequest Time Rejection Till Outcome :=
  (sampleDesk 0).after paidTill (served 0 5 120 (.reconcile 120))

theorem reconciled_timely : (sampleDesk 0).timely.Reachable reconciled := by
  refine Service.timely_of_path rfl ?_
  repeat' apply And.intro
  all_goals first | trivial | (rintro running ⟨⟩; trivial)

theorem paid_invoice_told : (aimAt 0).Told 1 reconciled.shared := by
  have asked : reconciled.running[(aimAt 0).pass]?.map Running.request = some (.reconcile 120) := rfl
  have ended : reconciled.result (aimAt 0).pass = some (.ok ⟨1, []⟩) := by decide +kernel
  exact settled_invoice_reconciled plainQueries 1 1 900 (· / ·) (by decide) (.inl rfl) reconciled_timely asked
    ended (by decide) (by decide)

end EthPayServer.Plugins
