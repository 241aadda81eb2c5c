import EthPayServer.Pipeline.Totals
import EthPayServer.Pipeline.Paid

/-!
# Replaying applied events

An accepted lineage break that has forgotten every cursor applies events again
that were applied before.  Payments and totals come out as they were, unless an
old reorganisation meets a payment that was filed after it: the payment is
retracted, and its own repeated detection does not revive it.
-/

namespace EthPayServer.Pipeline

open Lib Data Consumer
open Evm (Time Uuid MonitorEvent PaymentDetected PaymentConfirmed ReorgDetected)

/-- One delivery of an event: what it draws from outside, and what its statements meet. -/
structure Dispatch where
  event : MonitorEvent
  delivery : Delivery
  world : World EventConsumerError Time

/-- Apply events in order and halt at the first that fails; whether all went through. -/
def consume (divide : Division) : List Dispatch → Db → Db × Bool
  | [], db => (db, true)
  | dispatch :: rest, db =>
    let outcome := handleEvent divide dispatch.delivery dispatch.event dispatch.world 0 db
    if outcome.result = .ok () then consume divide rest outcome.state else (outcome.state, false)

/-! ## What counts -/

structure Counted where
  identity : Uuid × (ChainId × Text × Int) × Uuid × Option Uuid
  amount : Numeric 78 0
  creditedAmount : Option (Numeric 78 18)
deriving DecidableEq

def counted (payment : Payment) : Counted :=
  ⟨payment.identity, payment.amount, payment.creditedAmount⟩

def livePayments (db : Db) : List Counted :=
  (db.payments.rows.filter fun payment => payment.reorged = false).map counted

def received (db : Db) : List (Uuid × Numeric 78 18) :=
  db.invoices.rows.map fun invoice => (invoice.id, invoice.amountReceived)

def SameCounts (db db' : Db) : Prop :=
  livePayments db' = livePayments db ∧ received db' = received db

instance (db db' : Db) : Decidable (SameCounts db db') := by
  unfold SameCounts
  infer_instance

/-! ## When a replay changes nothing -/

/-- Two detections of one transfer say the same about it, apart from the block. -/
structure Agrees (event event' : PaymentDetected) : Prop where
  invoiceId : event.invoiceId = event'.invoiceId
  paymentAddress : event.paymentAddress = event'.paymentAddress
  amount : event.amount = event'.amount
  isNative : event.isNative = event'.isNative
  tokenAddress : event.tokenAddress = event'.tokenAddress

def Consistent (events : List MonitorEvent) : Prop :=
  ∀ event event', .paymentDetected event ∈ events → .paymentDetected event' ∈ events →
    transferKey event = transferKey event' → Agrees event event'

/--
No reorganisation among the events can meet a payment that is live now: the
payment survived it, or lies below its fork in the table and in every detection
among the events.
-/
def Spares (events : List MonitorEvent) (db : Db) : Prop :=
  ∀ report, .reorgDetected report ∈ events → report.survivorsVerifiable = true →
    ∀ payment ∈ db.payments.rows, payment.chainId = .evm report.chainId → payment.reorged = false →
      survived report payment = true ∨
        ((payment.blockNumber.any fun number => asI64 report.forkBlock ≤ number) = false ∧
          ∀ event, .paymentDetected event ∈ events → transferKey event = some payment.txKey →
            asI64 event.blockNumber < asI64 report.forkBlock)

/-! ## Detections that were applied -/

def creditOfEvent (divide : Division) (event : PaymentDetected) (db : Db) : Option (Numeric 78 18) :=
  match assetFor event db with
  | .error _ => none
  | .ok asset => (creditFor divide event.amount.toNat 0 (optionFor event asset.2.2 db) db).creditedAmount.bind
      Numeric.ofRat?

variable {delivery : Delivery} {event event' : PaymentDetected} {row : Payment} {change : Payment → Payment}

section Absorbed

variable {divide : Division}

theorem creditOfEvent_of_row {payment : PaymentData} {txIndex : Int}
    (isDescribed : described divide delivery event db = .ok (payment, txIndex))
    (isRow : payment.toRow txIndex = .ok row) : row.creditedAmount = creditOfEvent divide event db := by
  obtain ⟨_, asset, isAsset, rfl⟩ := described_ok isDescribed
  rw [(PaymentData.toRow_ok isRow).creditedAmount, creditOfEvent, isAsset]
  simp only [paymentData]
  rw [creditFor_restamp event.amount.toNat 0 delivery.now]

theorem creditOfEvent_of_sameCatalog (same : SameCatalog db db') (event : PaymentDetected) :
    creditOfEvent divide event db' = creditOfEvent divide event db := by
  simp only [creditOfEvent, assetFor_of_sameCatalog same, optionFor_of_sameCatalog same, creditFor,
    getPaymentOption, same.paymentOptions]

theorem creditOfEvent_of_agrees (agrees : Agrees event event') (sameChain : event.chainId = event'.chainId) :
    creditOfEvent divide event db = creditOfEvent divide event' db := by
  have sameAsset : assetFor event db = assetFor event' db := by
    simp only [assetFor, agrees.isNative, agrees.tokenAddress, sameChain]
  have sameOption : optionFor event = optionFor event' := by
    have sameLate : isLateOption event = isLateOption event' := by
      funext token option
      simp only [isLateOption, agrees.paymentAddress, sameChain]
    funext token db
    simp only [optionFor, sameLate, agrees.paymentAddress, agrees.invoiceId, sameChain]
  simp only [creditOfEvent, sameAsset, sameOption, agrees.amount]

theorem chainId_of_transferKey {key : ChainId × Text × Int} (isKey : transferKey event = some key)
    (isKey' : transferKey event' = some key) : event.chainId = event'.chainId := by
  obtain ⟨_, _, rfl⟩ := Option.map_eq_some_iff.mp isKey
  obtain ⟨_, _, same⟩ := Option.map_eq_some_iff.mp isKey'
  simp only [Prod.mk.injEq, ChainId.evm.injEq] at same
  exact same.1.symm

def Absorbed (divide : Division) (event : PaymentDetected) (db : Db) : Prop :=
  ∃ row ∈ db.payments.rows, transferKey event = some row.txKey ∧
    (creditOfEvent divide event db).or row.creditedAmount = row.creditedAmount

theorem Absorbed.of_map (absorbed : Absorbed divide event db)
    (isRows : db'.payments.rows = db.payments.rows.map change) (same : SameCatalog db db')
    (keeps : ∀ row ∈ db.payments.rows, (change row).txKey = row.txKey ∧
      (transferKey event = some row.txKey →
        (change row).creditedAmount = row.creditedAmount ∨
          (change row).creditedAmount = (creditOfEvent divide event db).or row.creditedAmount)) :
    Absorbed divide event db' := by
  obtain ⟨row, mem, isKey, settled⟩ := absorbed
  obtain ⟨sameKey, credit⟩ := keeps row mem
  refine ⟨change row, ?_, isKey.trans (congrArg some sameKey.symm), ?_⟩
  · rw [isRows]
    exact List.mem_map_of_mem mem
  rw [creditOfEvent_of_sameCatalog same]
  rcases credit isKey with unchanged | again
  · rw [unchanged]
    exact settled
  · rw [again, ← Option.or_assoc, Option.or_self]

/-- A detection stays absorbed, whatever is applied later. -/
theorem Absorbed.write {event : MonitorEvent} {past : PaymentDetected}
    (write : Write divide event db db')
    (agrees : ∀ detected, event = .paymentDetected detected → transferKey detected = transferKey past →
      Agrees detected past)
    (absorbed : Absorbed divide past db) : Absorbed divide past db' := by
  have same : db'.payments = db.payments → SameCatalog db db' → Absorbed divide past db' := by
    intro samePayments catalog
    have isRows : db'.payments.rows = db.payments.rows.map id := by rw [samePayments, List.map_id]
    exact absorbed.of_map isRows catalog fun _ _ => ⟨rfl, fun _ => .inl rfl⟩
  rcases write.kinds with ⟨_, _, _, recorded⟩ | ⟨_, row, mem, _, changes, recorded⟩ |
    ⟨_, _, written, _⟩ | unchanged
  · obtain ⟨old, mem, isKey, settled⟩ := absorbed
    refine ⟨old, ?_, isKey, ?_⟩
    · rw [recorded.payments]
      exact List.mem_append_left _ mem
    · rw [creditOfEvent_of_sameCatalog recorded.catalog]
      exact settled
  · refine absorbed.of_map recorded.payments recorded.catalog fun other memOther => ?_
    split
    next here =>
      cases changes with
      | absorbs proposed describes sameKey =>
        obtain ⟨detected, _, _, _, rfl, isDescribed, isRow⟩ := describes
        refine ⟨rfl, fun isKey => .inr ?_⟩
        obtain rfl := db.payments.eq_of_key memOther mem here
        -- the two detections are of one transfer, so they credit the same
        have isKey' := transferKey_of_row isDescribed isRow
        rw [← sameKey] at isKey'
        rw [← creditOfEvent_of_agrees (agrees _ rfl (isKey'.trans isKey.symm))
          (chainId_of_transferKey isKey' isKey), ← creditOfEvent_of_row isDescribed isRow]
        rfl
      | confirms | retracts => exact ⟨rfl, fun _ => .inl rfl⟩
    · exact ⟨rfl, fun _ => .inl rfl⟩
  · exact same written.payments written.catalog
  · exact same unchanged.payments unchanged.catalog

theorem absorbed_of_applied {dispatch : Dispatch} (isEvent : dispatch.event = .paymentDetected event)
    (succeeds : (handleEvent divide dispatch.delivery dispatch.event dispatch.world 0 db).result = .ok ()) :
    Absorbed divide event (handleEvent divide dispatch.delivery dispatch.event dispatch.world 0 db).state := by
  rw [isEvent] at succeeds ⊢
  change Absorbed divide event (handlePaymentDetected divide dispatch.delivery event dispatch.world 0 db).state
  have spec : Proc.Triple dispatch.world (· = db)
      (handlePaymentDetected divide dispatch.delivery event) _ _ :=
    handlePaymentDetected_spec divide dispatch.delivery event
  obtain ⟨now, payment, txIndex, _, isDescribed, done⟩ := (spec 0 db rfl).of_ok succeeds
  obtain ⟨row, isRow, upserted⟩ := upsertWithTxIndexAndObligation_ok done
  obtain ⟨filed, isFiled⟩ := upserted.filed
  refine ⟨filed, isFiled.mem, ?_, ?_⟩
  · rw [transferKey_of_row isDescribed isRow, isFiled.key]
  · rw [creditOfEvent_of_sameCatalog isFiled.catalog, ← creditOfEvent_of_row isDescribed isRow]
    exact congrArg Payment.creditedAmount isFiled.absorbed

end Absorbed

theorem consume_absorbs {divide : Division} {history : List Dispatch} {start : Db}
    (past : List MonitorEvent) (consistent : Consistent (past ++ history.map Dispatch.event))
    (absorbed : ∀ event, .paymentDetected event ∈ past → Absorbed divide event start)
    (applied : (consume divide history start).2 = true) :
    ∀ event, .paymentDetected event ∈ past ++ history.map Dispatch.event →
      Absorbed divide event (consume divide history start).1 := by
  induction history generalizing past start with
  | nil => simpa [consume] using absorbed
  | cons dispatch rest ih =>
    by_cases succeeds :
        (handleEvent divide dispatch.delivery dispatch.event dispatch.world 0 start).result = .ok ()
    · have isEvents : past ++ (dispatch :: rest).map Dispatch.event =
          (past ++ [dispatch.event]) ++ rest.map Dispatch.event := by simp
      rw [isEvents] at consistent ⊢
      simp only [consume, if_pos succeeds] at applied ⊢
      refine ih (past ++ [dispatch.event]) consistent ?_ applied
      intro event mem
      rcases List.mem_append.mp mem with earlier | isLast
      · have writes : Proc.Writes (Write divide dispatch.event)
            (handleEvent divide dispatch.delivery dispatch.event) :=
          handleEvent_writes dispatch.delivery dispatch.event
        refine writes.preserves (I := Absorbed divide event) (fun write => Absorbed.write write ?_)
          dispatch.world 0 (absorbed event earlier)
        intro detected isDetected sameKey
        refine consistent detected event ?_ ?_ sameKey
        · rw [← isDetected]
          simp
        · exact List.mem_append_left _ (List.mem_append_left _ earlier)
      · exact absorbed_of_applied (List.mem_singleton.mp isLast).symm succeeds
    · simp [consume, succeeds] at applied

theorem TotalsExact.consume {divide : Division} {db : Db} (history : List Dispatch)
    (exact : TotalsExact db) : TotalsExact (Pipeline.consume divide history db).1 := by
  induction history generalizing db with
  | nil => exact exact
  | cons dispatch rest ih =>
    have writes : Proc.Writes (Write divide dispatch.event)
        (handleEvent divide dispatch.delivery dispatch.event) :=
      handleEvent_writes dispatch.delivery dispatch.event
    have next := writes.preserves (I := TotalsExact) (fun write exact => exact.write write)
      dispatch.world 0 exact
    simp only [Pipeline.consume]
    split
    · exact ih next
    · exact next

/-! ## One event again -/

/-- What of a payment a replay must not change. -/
def tally (payment : Payment) : Bool × Counted := (payment.reorged, counted payment)

theorem identity_of_tally {payment payment' : Payment} (same : tally payment = tally payment') :
    payment.identity = payment'.identity :=
  congrArg (fun columns => columns.2.identity) same

theorem creditedTotal_of_tally {rows rows' : List Payment} (same : rows'.map tally = rows.map tally)
    (invoiceId : Uuid) : creditedTotal rows' invoiceId = creditedTotal rows invoiceId := by
  have byTally : ∀ rows : List Payment, creditedTotal rows invoiceId =
      ((rows.map tally).map fun columns : Bool × Counted =>
        if columns.2.identity.2.2.1 = invoiceId ∧ columns.1 = false then
          (columns.2.creditedAmount.map Numeric.units).getD 0
        else 0).sum := by
    intro rows
    rw [List.map_map]
    rfl
  rw [byTally rows', same, ← byTally rows]

theorem livePayments_of_tally (same : db'.payments.rows.map tally = db.payments.rows.map tally) :
    livePayments db' = livePayments db := by
  have byTally : ∀ db : Db, livePayments db =
      ((db.payments.rows.map tally).filter fun columns => columns.1 = false).map Prod.snd := by
    intro db
    rw [List.filter_map, List.map_map]
    rfl
  rw [byTally db', same, ← byTally db]

theorem received_of_recorded {now : Time} {rows : List Payment} (exact : TotalsExact db)
    (recorded : Recorded now row rows db db')
    (same : creditedTotal rows row.invoiceId = creditedTotal db.payments.rows row.invoiceId) :
    received db' = received db := by
  obtain ⟨total, isTotal, isInvoices⟩ := recorded.invoices
  unfold received
  rw [isInvoices, List.map_map]
  refine List.map_congr_left fun invoice mem => ?_
  simp only [Function.comp_apply, Prod.mk.injEq, Invoice.id_onPayment, true_and]
  unfold Invoice.onPayment
  split
  next here =>
    refine Numeric.ext ?_
    rw [isTotal, same, ← here]
    exact (exact invoice mem).symm
  · rfl

theorem received_of_statusWritten {id : Uuid} {status : InvoiceStatus}
    (written : StatusWritten id status db db') : received db' = received db := by
  unfold received
  rw [written.invoices, List.map_map]
  refine List.map_congr_left fun invoice _ => ?_
  simp only [Function.comp_apply, Invoice.withStatus]
  split <;> rfl

/-- A reorganisation that finds nothing to retract writes nothing. -/
theorem reorg_idle {report : ReorgDetected} {db : Db}
    (nothing : report.survivorsVerifiable = true → retractions report db = [])
    (world : World EventConsumerError Time) : (handleReorgDetected delivery report world 0 db).state = db := by
  unfold handleReorgDetected
  by_cases verifiable : report.survivorsVerifiable = true
  · rw [if_pos verifiable]
    rcases (query_reads (reorgCandidates (.evm report.chainId) report.forkBlock) db).andThen
      (fun candidates => forM (arrange delivery.order (byInvoice (candidates.filter fun payment =>
        !survived report payment))) retractGroup) world 0 with ⟨_, _, _, _, _, outcome⟩ | ⟨_, outcome⟩
    · rw [outcome]
    have noGroups : arrange delivery.order (byInvoice
        ((reorgCandidates (.evm report.chainId) report.forkBlock db).filter fun payment =>
          !survived report payment)) = [] := by
      change arrange delivery.order (byInvoice (retractions report db)) = []
      rw [nothing verifiable]
      rfl
    rw [outcome, noGroups]
    rfl
  · rw [if_neg verifiable]
    rfl

/--
A state of a replay of events over the database it started from: payments and
received amounts are as they were, and nothing that is still to come can change
them.
-/
structure Unmoved (divide : Division) (events : List MonitorEvent) (base db : Db) : Prop where
  tallies : db.payments.rows.map tally = base.payments.rows.map tally
  received : received db = received base
  exact : TotalsExact db
  spares : Spares events db
  absorbed : ∀ event, .paymentDetected event ∈ events → Absorbed divide event db

section Unmoved

variable {divide : Division} {events : List MonitorEvent} {base db db' : Db}

/-- At most the block number of a row changes, to that of a detection among the events. -/
def Redates (events : List MonitorEvent) (row row' : Payment) : Prop :=
  tally row' = tally row ∧ (row'.blockNumber = row.blockNumber ∨ ∃ event, .paymentDetected event ∈ events ∧
    transferKey event = some row.txKey ∧ row'.blockNumber = some (asI64 event.blockNumber))

theorem Spares.of_map (spares : Spares events db) (isRows : db'.payments.rows = db.payments.rows.map change)
    (keeps : ∀ row ∈ db.payments.rows, Redates events row (change row)) : Spares events db' := by
  intro report memReport verifiable payment mem onChain live
  rw [isRows] at mem
  obtain ⟨row, memRow, rfl⟩ := List.mem_map.mp mem
  obtain ⟨same, block⟩ := keeps row memRow
  have sameKey : (change row).txKey = row.txKey := Db.txKey_of_identity (identity_of_tally same)
  have sameChain : (change row).chainId = row.chainId := congrArg Prod.fst sameKey
  have sameHash : (change row).txHash.val = row.txHash.val := congrArg (fun key => key.2.1) sameKey
  have sameLive : (change row).reorged = row.reorged := congrArg Prod.fst same
  rw [sameChain] at onChain
  rw [sameLive] at live
  rw [sameKey]
  rcases spares report memReport verifiable row memRow onChain live with hasSurvived | ⟨below, all⟩
  · left
    unfold survived at hasSurvived ⊢
    rwa [sameHash]
  right
  refine ⟨?_, all⟩
  rcases block with unchanged | ⟨event, memEvent, isKey, isBlock⟩
  · rwa [unchanged]
  · have low := all event memEvent isKey
    rw [isBlock]
    simpa using low

section

variable (unmoved : Unmoved divide events base db)
include unmoved

theorem Unmoved.of_map (isRows : db'.payments.rows = db.payments.rows.map change)
    (keeps : ∀ row ∈ db.payments.rows, Redates events row (change row))
    (sameReceived : Pipeline.received db' = Pipeline.received db) (exact : TotalsExact db')
    (catalog : SameCatalog db db') : Unmoved divide events base db' := by
  have sameTallies : db'.payments.rows.map tally = db.payments.rows.map tally := by
    rw [isRows, List.map_map]
    exact List.map_congr_left fun row mem => (keeps row mem).1
  refine ⟨sameTallies.trans unmoved.tallies, sameReceived.trans unmoved.received, exact,
    unmoved.spares.of_map isRows keeps, ?_⟩
  intro event mem
  refine (unmoved.absorbed event mem).of_map isRows catalog fun row memRow => ?_
  have same := (keeps row memRow).1
  refine ⟨Db.txKey_of_identity (identity_of_tally same), fun _ => .inl ?_⟩
  exact congrArg (fun columns => columns.2.creditedAmount) same

theorem Unmoved.of_samePayments (samePayments : db'.payments = db.payments)
    (sameReceived : Pipeline.received db' = Pipeline.received db) (exact : TotalsExact db')
    (catalog : SameCatalog db db') : Unmoved divide events base db' := by
  have isRows : db'.payments.rows = db.payments.rows.map id := by rw [samePayments, List.map_id]
  exact unmoved.of_map isRows (fun _ _ => ⟨rfl, .inl rfl⟩) sameReceived exact catalog

theorem Unmoved.changed {id : Uuid} {stored : Payment} {now : Time}
    (recorded : Recorded now stored (changeRow id change db.payments.rows) db db')
    (keeps : ∀ row ∈ db.payments.rows, row.id = id → Redates events row (change row))
    (exact : TotalsExact db') : Unmoved divide events base db' := by
  have kept : ∀ row ∈ db.payments.rows, Redates events row (if row.id = id then change row else row) := by
    intro row mem
    split
    next here => exact keeps row mem here
    · exact ⟨rfl, .inl rfl⟩
  refine unmoved.of_map recorded.payments kept ?_ exact recorded.catalog
  refine received_of_recorded unmoved.exact recorded (creditedTotal_of_tally ?_ _)
  rw [changeRow, List.map_map]
  exact List.map_congr_left fun row mem => (kept row mem).1

/-- Filing a detection again changes at most the block number of its row. -/
theorem Unmoved.filed (mem : .paymentDetected event ∈ events) {now : Time} {payment : PaymentData}
    {txIndex : Int} (isDescribed : described divide delivery event db = .ok (payment, txIndex))
    (isRow : payment.toRow txIndex = .ok row) (upserted : Upserted now row db db') (exact : TotalsExact db') :
    Unmoved divide events base db' := by
  obtain ⟨old, memOld, isKey, settled⟩ := unmoved.absorbed event mem
  have isKey' := transferKey_of_row isDescribed isRow
  cases upserted with
  | inserted freshKey freshId recorded =>
    have sameKey : old.txKey = row.txKey := Option.some.inj (isKey.symm.trans isKey')
    exact absurd (List.mem_map.mpr ⟨old, memOld, sameKey⟩) freshKey
  | updated existing memExisting sameKey recorded =>
    obtain rfl : existing = old := Db.eq_of_txKey memExisting memOld
      (sameKey.trans (Option.some.inj (isKey'.symm.trans isKey)))
    rw [← creditOfEvent_of_row isDescribed isRow] at settled
    refine unmoved.changed recorded (fun other memOther here => ?_) exact
    obtain rfl := db.payments.eq_of_key memOther memExisting here
    refine ⟨?_, .inr ⟨event, mem, isKey, ?_⟩⟩
    · simp only [tally, counted, Payment.identity_absorb]
      simp only [Payment.absorb, settled]
    · obtain ⟨_, _, _, isPayment⟩ := described_ok isDescribed
      simp only [Payment.absorb, (PaymentData.toRow_ok isRow).blockNumber, isPayment,
        paymentData, Option.map_some, Option.some_or]

end

theorem Unmoved.write (unmoved : Unmoved divide events base db) {event : MonitorEvent}
    (mem : event ∈ events) (noReorg : ∀ report, event ≠ .reorgDetected report)
    (write : Write divide event db db') : Unmoved divide events base db' := by
  have exact := unmoved.exact.write write
  cases write with
  | filed delivery now payment txIndex row isDescribed isRow upserted =>
    exact unmoved.filed mem isDescribed isRow upserted exact
  | marked isMarked =>
    obtain ⟨payment, now, _, done⟩ := isMarked
    obtain ⟨_, _, _, _, recorded⟩ := markConfirmed_ok done
    exact unmoved.changed recorded (fun _ _ _ => ⟨rfl, .inl rfl⟩) exact
  | settled status decided written =>
    exact unmoved.of_samePayments written.payments (received_of_statusWritten written) exact
      written.catalog
  | retracted payment now mem live recorded => exact absurd rfl (noReorg _)
  | reopened invoiceId status isStatus written => exact absurd rfl (noReorg _)
  | noted same =>
    refine unmoved.of_samePayments same.payments ?_ exact same.catalog
    unfold Pipeline.received
    rw [same.invoices]

/-- Applying one of the events again, however the application ends. -/
theorem Unmoved.apply (unmoved : Unmoved divide events base db) {dispatch : Dispatch}
    (mem : dispatch.event ∈ events) : Unmoved divide events base
      (handleEvent divide dispatch.delivery dispatch.event dispatch.world 0 db).state := by
  cases isEvent : dispatch.event with
  | reorgDetected report =>
    rw [isEvent] at mem
    have idle : (handleReorgDetected dispatch.delivery report dispatch.world 0 db).state = db := by
      refine reorg_idle (fun verifiable => ?_) dispatch.world
      refine List.eq_nil_iff_forall_not_mem.mpr fun payment inside => ?_
      obtain ⟨memRow, onChain, above, live, lost⟩ := mem_retractions.mp inside
      rcases unmoved.spares report mem verifiable payment memRow onChain live with
        hasSurvived | ⟨below, _⟩
      · rw [hasSurvived] at lost
        cases lost
      · rw [below] at above
        cases above
    change Unmoved divide events base
      (handleReorgDetected dispatch.delivery report dispatch.world 0 db).state
    rwa [idle]
  | paymentDetected event =>
    rw [isEvent] at mem
    exact (handleEvent_writes dispatch.delivery (.paymentDetected event)).preserves
      (I := Unmoved divide events base)
      (fun write unmoved => unmoved.write mem (fun _ => nofun) write) dispatch.world 0 unmoved
  | paymentConfirmed event =>
    rw [isEvent] at mem
    exact (handleEvent_writes dispatch.delivery (.paymentConfirmed event)).preserves
      (I := Unmoved divide events base)
      (fun write unmoved => unmoved.write mem (fun _ => nofun) write) dispatch.world 0 unmoved
  | notice chainId => exact unmoved

theorem Unmoved.consume {again : List Dispatch} (within : ∀ dispatch ∈ again, dispatch.event ∈ events)
    (unmoved : Unmoved divide events base db) :
    Unmoved divide events base (Pipeline.consume divide again db).1 := by
  induction again generalizing db with
  | nil => exact unmoved
  | cons dispatch rest ih =>
    have next := unmoved.apply (within dispatch List.mem_cons_self)
    simp only [Pipeline.consume]
    split
    · exact ih (fun other mem => within other (List.mem_cons_of_mem dispatch mem)) next
    · exact next

end Unmoved

/--
Applying a suffix of an applied history again, to its end or to the first event
that fails, leaves the live payments and the received amounts as they were, if
the history's detections of each transfer agree and no reorganisation in the
suffix can meet a payment that is live before the replay.
-/
theorem replay_keeps (divide : Division) {start : Db} (reached : (server divide).Reachable start)
    {history again : List Dispatch} (applied : (consume divide history start).2 = true) (k : Nat)
    (isSuffix : again.map Dispatch.event = (history.map Dispatch.event).drop k)
    (consistent : Consistent (history.map Dispatch.event))
    (spares : Spares (again.map Dispatch.event) (consume divide history start).1) :
    SameCounts (consume divide history start).1
      (consume divide again (consume divide history start).1).1 := by
  have absorbed := consume_absorbs [] consistent nofun applied
  have unmoved : Unmoved divide (again.map Dispatch.event) (consume divide history start).1
      (consume divide history start).1 := by
    refine ⟨rfl, rfl, (totalsExact_of_server reached).consume history, spares, ?_⟩
    intro event mem
    rw [isSuffix] at mem
    exact absorbed event (List.mem_of_mem_drop mem)
  have final := unmoved.consume fun dispatch mem => List.mem_map_of_mem mem
  exact ⟨livePayments_of_tally final.tallies, final.received⟩

/-! ## A payment above an old fork -/

def sampleDispatch (paymentId : Uuid) (event : MonitorEvent) : Dispatch :=
  ⟨event, sampleDelivery paymentId, Proc.uninterrupted fun _ => 0⟩

/-- A reorganisation of chain 1 from a block on that no payment survived. -/
def reorgFrom (forkBlock : Nat) : MonitorEvent :=
  .reorgDetected ⟨1, forkBlock, 0, 1, 2, [], [], true, 0⟩

/-- A payment in block 10 and a reorganisation above it. -/
def sparedHistory : List Dispatch :=
  [sampleDispatch 1 (.paymentDetected (sampleDetected 7 (10 ^ 18))), sampleDispatch 2 (reorgFrom 11)]

theorem replay_keeps_spared :
    livePayments (consume (· / ·) sparedHistory sampleDb).1 ≠ [] ∧
      SameCounts (consume (· / ·) sparedHistory sampleDb).1
        (consume (· / ·) sparedHistory (consume (· / ·) sparedHistory sampleDb).1).1 := by
  refine ⟨by decide +kernel, replay_keeps (· / ·) sampleDb_reachable (by decide +kernel) 0 rfl ?_ ?_⟩
  · intro event event' mem mem' _
    obtain rfl : event = sampleDetected 7 (10 ^ 18) := by
      simpa [sparedHistory, sampleDispatch, reorgFrom] using mem
    obtain rfl : event' = sampleDetected 7 (10 ^ 18) := by
      simpa [sparedHistory, sampleDispatch, reorgFrom] using mem'
    exact ⟨rfl, rfl, rfl, rfl, rfl⟩
  intro report mem _ payment memRow _ _
  obtain rfl : report = ⟨1, 11, 0, 1, 2, [], [], true, 0⟩ := by
    simpa [sparedHistory, sampleDispatch, reorgFrom] using mem
  right
  constructor
  · have low : ∀ payment ∈ (consume (· / ·) sparedHistory sampleDb).1.payments.rows,
        (payment.blockNumber.any fun number => asI64 11 ≤ number) = false := by decide +kernel
    exact low payment memRow
  · intro event memEvent _
    obtain rfl : event = sampleDetected 7 (10 ^ 18) := by
      simpa [sparedHistory, sampleDispatch, reorgFrom] using memEvent
    decide

def retractedHistory : List Dispatch :=
  [sampleDispatch 1 (reorgFrom 5), sampleDispatch 2 (.paymentDetected (sampleDetected 7 (10 ^ 18)))]

/-- Applied again, the reorganisation retracts the payment, and the detection leaves it retracted. -/
theorem replay_retracts :
    (consume (· / ·) retractedHistory sampleDb).2 = true ∧
      livePayments (consume (· / ·) retractedHistory sampleDb).1 ≠ [] ∧
      livePayments (consume (· / ·) retractedHistory
        (consume (· / ·) retractedHistory sampleDb).1).1 = [] ∧
      ¬ SameCounts (consume (· / ·) retractedHistory sampleDb).1
        (consume (· / ·) retractedHistory (consume (· / ·) retractedHistory sampleDb).1).1 := by
  decide +kernel

end EthPayServer.Pipeline
