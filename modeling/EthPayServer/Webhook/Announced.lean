import EthPayServer.Consumer.Redelivery
import EthPayServer.Webhook.Drain

/-!
# Detected payments are announced

Of an obligation three things are kept: its key is unique, every grant but the
last has run out, and a mark has grounds in something a drainer saw.
-/

namespace EthPayServer.Webhook.Drain

open Lib Data Consumer
open Evm (Time Uuid MonitorEvent)

/-! ## What the event consumer writes to the outbox -/

variable {now : Time} {row : Payment} {db db' : Db}

theorem outbox_of_updateInvoiceOnPayment (done : updateInvoiceOnPayment now row db = .ok db') :
    db'.webhookOutbox = db.webhookOutbox := by
  unfold updateInvoiceOnPayment at done
  split at done
  · cases done
  · cases done
    rfl

theorem outbox_of_updatePayment {change : Payment → Payment}
    {keeps : ∀ payment, (change payment).identity = payment.identity}
    (done : updatePayment now row change keeps db = .ok db') : db'.webhookOutbox = db.webhookOutbox :=
  (outbox_of_updateInvoiceOnPayment done :)

theorem outbox_of_insertPayment (done : insertPayment now row db = .ok db') :
    db'.webhookOutbox = db.webhookOutbox := by
  unfold insertPayment at done
  split at done
  · split at done
    · split at done
      · split at done
        · have same := outbox_of_updateInvoiceOnPayment done
          exact same
        · cases done
      · cases done
    · cases done
  · cases done

theorem outbox_of_upsertPaymentRow {payment : PaymentData} {txIndex : Int} {id : Uuid}
    (done : upsertPaymentRow payment txIndex now db = .ok (id, db')) :
    db'.webhookOutbox = db.webhookOutbox := by
  obtain ⟨row, -, filed⟩ := bind_eq_ok.mp done
  cases found : db.payments.rows.find? fun existing => existing.txKey = row.txKey with
  | some existing =>
    rw [found] at filed
    obtain ⟨written, updated, isResult⟩ := bind_eq_ok.mp filed
    cases isResult
    exact outbox_of_updatePayment updated
  | none =>
    rw [found] at filed
    obtain ⟨written, inserted, isResult⟩ := bind_eq_ok.mp filed
    cases isResult
    exact outbox_of_insertPayment inserted

/-- Obligations are only added, and never a second one for a key. -/
structure Obliges (db db' : Db) : Prop where
  keeps : db.webhookOutbox ⊆ db'.webhookOutbox
  unique : (db.webhookOutbox.map obligationKey).Nodup → (db'.webhookOutbox.map obligationKey).Nodup

theorem Obliges.of_eq (same : db'.webhookOutbox = db.webhookOutbox) : Obliges db db' := by
  constructor
  · rw [same]
    exact List.Subset.refl _
  · rw [same]
    exact id

theorem obliges_of_upsert {payment : PaymentData} {txIndex : Int} {eventType : String}
    (done : upsertWithTxIndexAndObligation payment txIndex eventType now db = .ok ((), db')) :
    Obliges db db' := by
  obtain ⟨⟨paymentId, written⟩, upserted, isResult⟩ := bind_eq_ok.mp done
  have same := outbox_of_upsertPaymentRow upserted
  simp only [pure, Except.pure, Except.ok.injEq, Prod.mk.injEq, true_and] at isResult
  subst isResult
  split
  · exact .of_eq same
  next isNew =>
    rw [same] at isNew
    constructor
    · simp only [same]
      exact List.subset_append_left _ _
    intro unique
    simp only [same, List.map_append, List.map_singleton]
    refine List.Nodup.append unique (List.nodup_singleton _) ?_
    intro key known isKey
    obtain ⟨obligation, mem, rfl⟩ := List.mem_map.mp known
    have sameKey := List.mem_singleton.mp isKey
    refine isNew (List.any_eq_true.mpr ⟨obligation, mem, ?_⟩)
    simp only [obligationKey, Prod.mk.injEq] at sameKey
    exact decide_eq_true sameKey

theorem obliges_of_call {relied : Uuid → InvoiceStatus → Db → Prop} {event : MonitorEvent}
    (call : Interleaved.Call relied event db db') : Obliges db db' := by
  cases call with
  | filed done => exact obliges_of_upsert done
  | marked done =>
    unfold markConfirmed at done
    split at done
    · cases done
    · obtain ⟨written, updated, isResult⟩ := map_eq_ok.mp done
      cases isResult
      exact .of_eq (outbox_of_updatePayment updated)
  | noted done =>
    obtain ⟨_, -, rest⟩ := bind_eq_ok.mp done
    obtain ⟨_, -, rest⟩ := bind_eq_ok.mp rest
    split at rest
    · cases rest
      exact .of_eq rfl
    · cases rest
  | settled settles premised done =>
    unfold updateStatus at done
    split at done
    · cases done
      exact .of_eq rfl
    · cases done
  | retracted done =>
    unfold markPaymentReorged at done
    split at done
    · cases done
      exact .of_eq rfl
    · obtain ⟨written, updated, isResult⟩ := map_eq_ok.mp done
      cases isResult
      exact .of_eq (outbox_of_updatePayment updated)
  | reopened isOpen isStatus premised done =>
    unfold updateStatus at done
    split at done
    · cases done
      exact .of_eq rfl
    · cases done

/-! ## What is kept of an obligation -/

/-- What a drainer saw that lets it mark the obligation dispatched. -/
inductive Grounds (obligation : WebhookObligation) (past : List Books) : Prop
  | announced {books : Books} {announcement : Announcement} (seen : books ∈ past)
      (mem : announcement ∈ books.announced)
      (event : announcement.eventType.asStr = obligation.eventType)
      (payment : announcement.payment.id = obligation.paymentId)
  | unwanted {before books : Books} {invoice : Invoice} (seenBefore : before ∈ past)
      (isInvoice : getInvoice obligation.invoiceId before.db = some invoice) (seen : books ∈ past)
      (unwanted : suppressed invoice.storeId obligation.eventType books = true ∨
        getEnabledWebhook invoice.storeId books = none)
  | invoiceGone {books : Books} (seen : books ∈ past)
      (gone : getInvoice obligation.invoiceId books.db = none)
  | paymentGone {books : Books} (seen : books ∈ past)
      (gone : books.db.payments.find? obligation.paymentId = none)
  | reorged {books : Books} {payment : Payment} (seen : books ∈ past)
      (isPayment : books.db.payments.find? obligation.paymentId = some payment)
      (reorged : payment.reorged = true)
  | unknownType (unknown : parseEventType obligation.eventType = none)

theorem Grounds.grow {past later : List Books} (grounds : Grounds obligation past) (grown : past ⊆ later) :
    Grounds obligation later := by
  cases grounds with
  | announced seen mem event payment => exact .announced (grown seen) mem event payment
  | unwanted seenBefore isInvoice seen unwanted =>
    exact .unwanted (grown seenBefore) isInvoice (grown seen) unwanted
  | invoiceGone seen gone => exact .invoiceGone (grown seen) gone
  | paymentGone seen gone => exact .paymentGone (grown seen) gone
  | reorged seen isPayment reorged => exact .reorged (grown seen) isPayment reorged
  | unknownType unknown => exact .unknownType unknown

structure Orderly (state : DrainState) : Prop where
  unique : (state.books.db.webhookOutbox.map obligationKey).Nodup
  grounded : ∀ key, (state.books.outbox key).dispatchedAt ≠ none →
    ∃ obligation ∈ state.books.db.webhookOutbox, obligationKey obligation = key ∧
      Grounds obligation state.past
  stamped : ∀ grant ∈ state.grants, grant.deadline < state.clock ∨
    (state.books.outbox grant.key).claimedUntil = some grant.deadline
  exclusive : state.grants.Pairwise fun newer older => newer.key = older.key → older.deadline < state.clock

structure Grows (before after : DrainState) : Prop where
  obligations : before.books.db.webhookOutbox ⊆ after.books.db.webhookOutbox
  past : before.past ⊆ after.past

theorem Grows.refl (state : DrainState) : Grows state state := ⟨List.Subset.refl _, List.Subset.refl _⟩

theorem Grows.trans {first second third : DrainState} (early : Grows first second)
    (late : Grows second third) : Grows first third :=
  ⟨List.Subset.trans early.obligations late.obligations, List.Subset.trans early.past late.past⟩

structure Acts (before after : DrainState) : Prop where
  kept : Orderly after
  grows : Grows before after

theorem Acts.refl (kept : Orderly state) : Acts state state := ⟨kept, .refl state⟩

variable {books : Books}

theorem Grows.write (state : DrainState) (same : books.db = state.books.db) :
    Grows state (state.write books) := by
  refine ⟨?_, List.subset_cons_self _ _⟩
  simp only [DrainState.write, same]
  exact List.Subset.refl _

/-- A write that leaves outbox and columns alone. -/
theorem Acts.write (kept : Orderly state) (sameDb : books.db = state.books.db)
    (sameOutbox : books.outbox = state.books.outbox) : Acts state (state.write books) := by
  refine ⟨⟨?_, ?_, ?_, kept.exclusive⟩, .write state sameDb⟩
  · simp only [DrainState.write, sameDb]
    exact kept.unique
  · intro key dispatched
    simp only [DrainState.write, sameDb, sameOutbox] at dispatched ⊢
    obtain ⟨obligation, mem, isKey, grounds⟩ := kept.grounded key dispatched
    exact ⟨obligation, mem, isKey, grounds.grow (List.subset_cons_self _ _)⟩
  · intro grant mem
    simp only [DrainState.write, sameOutbox]
    exact kept.stamped grant mem

theorem Acts.marked (kept : Orderly state) (known : obligation ∈ state.books.db.webhookOutbox)
    (grounds : Grounds obligation state.past) (now : Time) :
    Acts state (state.write { state.books with
      outbox := fun key =>
        if key = obligationKey obligation then { state.books.outbox key with dispatchedAt := some now }
        else state.books.outbox key }) := by
  refine ⟨⟨kept.unique, ?_, ?_, kept.exclusive⟩, .write state rfl⟩
  · intro key dispatched
    by_cases isKey : key = obligationKey obligation
    · exact ⟨obligation, known, isKey.symm, grounds.grow (List.subset_cons_self _ _)⟩
    · simp only [DrainState.write, if_neg isKey] at dispatched
      obtain ⟨other, mem, isOther, groundsOther⟩ := kept.grounded key dispatched
      exact ⟨other, mem, isOther, groundsOther.grow (List.subset_cons_self _ _)⟩
  · intro grant mem
    refine (kept.stamped grant mem).imp (fun lapsed => lapsed) fun stamp => ?_
    simp only [DrainState.write]
    split <;> exact stamp

/-! ### Claims -/

theorem mem_of_claimBatch (mem : obligation ∈ claimBatch limit now books) :
    obligation ∈ books.db.webhookOutbox ∧ claimable now books obligation = true :=
  List.mem_filter.mp (List.mem_of_mem_take mem)

theorem lapsed_of_claimBatch {deadline : Time} {key : Uuid × String}
    (mem : key ∈ (claimBatch limit now books).map obligationKey)
    (stamp : (books.outbox key).claimedUntil = some deadline) : deadline < now := by
  obtain ⟨obligation, memBatch, rfl⟩ := List.mem_map.mp mem
  have isClaimable := (mem_of_claimBatch memBatch).2
  simp only [claimable, stamp, Bool.and_eq_true, decide_eq_true_eq] at isClaimable
  exact isClaimable.2

theorem nodup_claimBatch (limit : Nat) (now : Time)
    (unique : (books.db.webhookOutbox.map obligationKey).Nodup) :
    ((claimBatch limit now books).map obligationKey).Nodup :=
  unique.sublist (((List.take_sublist _ _).trans List.filter_sublist).map _)

/-- Whoever held a claim on an obligation that is granted anew holds it no more. -/
theorem Orderly.superseded (kept : Orderly state) {grant : Grant} (mem : grant ∈ state.grants)
    (isGranted : grant.key ∈ (claimBatch limit now state.books).map obligationKey) :
    grant.deadline < max state.clock now := by
  rcases kept.stamped grant mem with lapsed | stamp
  · exact lt_max_of_lt_left lapsed
  · exact lt_max_of_lt_right (lapsed_of_claimBatch isGranted stamp)

theorem Acts.granted (kept : Orderly state) (drainer limit : Nat) (visibility now : Time) :
    Acts state (state.grant drainer limit visibility now) := by
  refine ⟨⟨kept.unique, ?_, ?_, ?_⟩, List.Subset.refl _, List.Subset.refl _⟩
  · intro key dispatched
    refine kept.grounded key ?_
    simp only [DrainState.grant, Books.stamp] at dispatched
    split at dispatched <;> exact dispatched
  · intro grant mem
    simp only [DrainState.grant, Books.stamp]
    rcases List.mem_append.mp mem with new | old
    · obtain ⟨obligation, memBatch, rfl⟩ := List.mem_map.mp new
      exact .inr (by rw [if_pos (List.mem_map_of_mem memBatch)])
    · by_cases isGranted : grant.key ∈ (claimBatch limit now state.books).map obligationKey
      · exact .inl (kept.superseded old isGranted)
      · rw [if_neg isGranted]
        exact (kept.stamped grant old).imp lt_max_of_lt_left fun stamp => stamp
  refine List.pairwise_append.mpr ⟨?_, ?_, ?_⟩
  · -- the keys of one batch differ
    have apart := nodup_claimBatch limit now kept.unique
    rw [List.Nodup, List.pairwise_map] at apart
    refine List.pairwise_map.mpr (apart.imp ?_)
    exact fun differ same => absurd same differ
  · exact kept.exclusive.imp fun lapses same => lt_max_of_lt_left (lapses same)
  intro newer memNew older memOld same
  obtain ⟨obligation, memBatch, rfl⟩ := List.mem_map.mp memNew
  have isGranted : older.key ∈ (claimBatch limit now state.books).map obligationKey := by
    rw [← same]
    exact List.mem_map_of_mem memBatch
  exact kept.superseded memOld isGranted

/-! ## The threads -/

abbrev drainContract : Thread.Contract Time RepositoryError DrainState where
  legal _ _ := True
  invariant := Orderly
  rely := Grows
  guarantee := Acts
  assumes := False

/-- A read leaves what it saw behind. -/
theorem see_meets {α : Type} (read : Books → α) (state : DrainState) :
    (see read).Meets drainContract
      (fun found later => Grows state later ∧ ∃ books ∈ later.past, read books = found)
      (fun _ later => Grows state later) state := by
  change Thread.Meets _ _ _ (Thread.assuming (fun _ => True) (see read)) state
  refine .statement ?_ ?_ ?_
  · rintro later _ _ _ relied kept - - ⟨⟩
    exact ⟨.write kept rfl rfl, relied.trans (.write later rfl), later.books, List.mem_cons_self .., rfl⟩
  · rintro later _ _ _ _ relied kept - - ⟨⟩
    exact ⟨.write kept rfl rfl, relied.trans (.write later rfl)⟩
  · intro later _ relied kept
    exact ⟨.refl kept, relied⟩

variable {failure : RepositoryError → DrainState → Prop}

theorem markDispatched_meets (known : obligation ∈ state.books.db.webhookOutbox)
    (grounds : Grounds obligation state.past) :
    (markDispatched obligation).Meets drainContract (fun _ later => Grows state later) failure state := by
  unfold markDispatched
  rw [Thread.meets_bind, Thread.meets_attempt]
  refine .whatever (Grows state) ?_ (fun relied kept => ⟨.refl kept, relied⟩) (fun q => q) fun q => q
  rintro later now _ _ relied kept - - ⟨⟩
  have acts := Acts.marked kept (relied.obligations known) (grounds.grow relied.past) now
  exact ⟨acts, relied.trans acts.grows⟩

def Found {α : Type} (read : Books → Option α) (past : List Books) : Lookup α → Prop
  | .found row => ∃ books ∈ past, read books = some row
  | .giveUp => ∃ books ∈ past, read books = none
  | .retry => True

theorem load_meets {α : Type} (read : Books → Option α) (state : DrainState) :
    (load read).Meets drainContract
      (fun lookup later => Grows state later ∧ Found read later.past lookup) failure state := by
  unfold load
  rw [Thread.meets_bind, Thread.meets_attempt]
  refine (see_meets read state).mono ?_ ?_
  · rintro found later ⟨grows, seen⟩
    cases found <;> exact ⟨grows, seen⟩
  · intro _ later grows
    exact ⟨grows, trivial⟩

def Loaded (obligation : WebhookObligation) (past : List Books) : Lookup (Invoice × Payment) → Prop
  | .found (invoice, payment) => payment.id = obligation.paymentId ∧
      ∃ books ∈ past, getInvoice obligation.invoiceId books.db = some invoice
  | .giveUp => Grounds obligation past
  | .retry => True

theorem loadObligationSubject_meets (state : DrainState) :
    (loadObligationSubject obligation).Meets drainContract
      (fun lookup later => Grows state later ∧ Loaded obligation later.past lookup) failure state := by
  unfold loadObligationSubject loadInvoice loadPayment
  refine (load_meets _ state).bind ?_
  rintro lookup afterInvoice ⟨grows, found⟩
  cases lookup with
  | giveUp =>
    obtain ⟨books, seen, gone⟩ := found
    exact ⟨grows, .invoiceGone seen gone⟩
  | retry => exact ⟨grows, trivial⟩
  | found invoice =>
    obtain ⟨books, seen, isInvoice⟩ := found
    simp only
    refine (load_meets _ afterInvoice).bind ?_
    rintro lookup later ⟨growsLater, foundLater⟩
    cases lookup with
    | giveUp =>
      obtain ⟨booksLater, seenLater, gone⟩ := foundLater
      exact ⟨grows.trans growsLater, .paymentGone seenLater gone⟩
    | retry => exact ⟨grows.trans growsLater, trivial⟩
    | found payment =>
      obtain ⟨booksLater, seenLater, isPayment⟩ := foundLater
      simp only
      split
      next reorged => exact ⟨grows.trans growsLater, .reorged seenLater isPayment reorged⟩
      · exact ⟨grows.trans growsLater, (Table.find?_eq_some.mp isPayment).2, books, growsLater.past seen, isInvoice⟩

def Offered (obligation : WebhookObligation) (past : List Books) : QueueOutcome → Prop
  | .queued => Grounds obligation past
  | .skipped => Grounds obligation past
  | .failed => True

theorem suppressedByPrefs_meets (storeId : Uuid) (event : String) (state : DrainState) :
    (suppressedByPrefs storeId event).Meets drainContract
      (fun isSuppressed later => Grows state later ∧
        (isSuppressed = true → ∃ books ∈ later.past, suppressed storeId event books = true)) failure state := by
  unfold suppressedByPrefs
  rw [Thread.meets_bind, Thread.meets_attempt]
  refine (see_meets _ state).mono ?_ ?_
  · rintro found later ⟨grows, books, seen, isFound⟩
    exact ⟨grows, fun isSuppressed => ⟨books, seen, isFound.trans isSuppressed⟩⟩
  · intro _ later grows
    exact ⟨grows, fun isSuppressed => by cases isSuppressed⟩

/-- Hand over the webhook; a success is on record. -/
theorem announce_meets {announcement : Announcement}
    (event : announcement.eventType.asStr = obligation.eventType)
    (isPayment : announcement.payment.id = obligation.paymentId) (state : DrainState) :
    Thread.Meets drainContract
      (fun sent later => Grows state later ∧ (sent.isOk = true → Grounds obligation later.past)) failure
      (Thread.statement fun _ state => .ok ((), state.write { state.books with
        announced := announcement :: state.books.announced })).attempt state := by
  rw [Thread.meets_attempt]
  refine .statement ?_ ?_ ?_
  · rintro later _ _ _ relied kept - - ⟨⟩
    exact ⟨.write kept rfl rfl, relied.trans (.write later rfl), fun _ =>
      .announced (List.mem_cons_self ..) (List.mem_cons_self ..) event isPayment⟩
  · rintro later _ _ _ _ relied kept - - ⟨⟩
    exact ⟨.write kept rfl rfl, relied.trans (.write later rfl), fun isOk => by cases isOk⟩
  · intro later _ relied kept
    exact ⟨.refl kept, relied, fun isOk => by cases isOk⟩

variable {eventType : WebhookEventType}

theorem queueForStore_meets {invoice : Invoice} {payment : Payment}
    (event : eventType.asStr = obligation.eventType) (isPayment : payment.id = obligation.paymentId)
    (loaded : ∃ books ∈ state.past, getInvoice obligation.invoiceId books.db = some invoice) :
    (queueForStore eventType invoice payment).Meets drainContract
      (fun outcome later => Grows state later ∧ Offered obligation later.past outcome) failure state := by
  obtain ⟨before, seenBefore, isInvoice⟩ := loaded
  unfold queueForStore
  refine (suppressedByPrefs_meets _ _ state).bind ?_
  rintro isSuppressed afterPrefs ⟨grows, seen⟩
  split
  next isTrue =>
    obtain ⟨books, seenBooks, off⟩ := seen isTrue
    rw [event] at off
    exact ⟨grows, .unwanted (grows.past seenBefore) isInvoice seenBooks (.inl off)⟩
  rw [Thread.meets_bind, Thread.meets_attempt]
  refine (see_meets _ afterPrefs).mono ?_ ?_
  · rintro found afterWebhook ⟨growsWebhook, books, seenBooks, isFound⟩
    cases found with
    | none =>
      exact ⟨grows.trans growsWebhook, .unwanted ((grows.trans growsWebhook).past seenBefore) isInvoice
        seenBooks (.inr isFound)⟩
    | some webhook =>
      simp only
      refine (announce_meets event isPayment afterWebhook).bind ?_
      rintro sent later ⟨growsLater, grounds⟩
      cases sent with
      | ok _ => exact ⟨(grows.trans growsWebhook).trans growsLater, grounds rfl⟩
      | error _ => exact ⟨(grows.trans growsWebhook).trans growsLater, trivial⟩
  · intro _ later growsLater
    exact ⟨grows.trans growsLater, trivial⟩

theorem asStr_of_parseEventType {text : String} (parses : parseEventType text = some eventType) :
    eventType.asStr = text := by
  simpa using List.find?_some parses

theorem dispatchObligation_meets (known : obligation ∈ state.books.db.webhookOutbox) :
    (dispatchObligation obligation).Meets drainContract (fun _ later => Grows state later) failure state := by
  unfold dispatchObligation
  cases parses : parseEventType obligation.eventType with
  | none => exact markDispatched_meets known (.unknownType parses)
  | some eventType =>
    simp only
    refine (loadObligationSubject_meets state).bind ?_
    rintro lookup loaded ⟨grows, found⟩
    cases lookup with
    | retry => exact grows
    | giveUp =>
      refine Thread.Meets.mono (markDispatched_meets (grows.obligations known) found) ?_ fun _ _ failed => failed
      exact fun _ _ growsLater => grows.trans growsLater
    | found subject =>
      obtain ⟨invoice, payment⟩ := subject
      simp only
      refine (queueForStore_meets (asStr_of_parseEventType parses) found.1 found.2).bind ?_
      rintro outcome offered ⟨growsOffered, grounds⟩
      have marks : Grounds obligation offered.past → (markDispatched obligation).Meets drainContract
          (fun _ later => Grows state later) failure offered := by
        intro grounds
        refine Thread.Meets.mono (markDispatched_meets ((grows.trans growsOffered).obligations known) grounds)
          ?_ fun _ _ failed => failed
        exact fun _ _ growsLater => (grows.trans growsOffered).trans growsLater
      cases outcome with
      | queued => exact marks grounds
      | skipped => exact marks grounds
      | failed => exact grows.trans growsOffered

theorem drainOnce_meets (drainer limit : Nat) (visibility : Time) (state : DrainState) :
    (drainOnce drainer limit visibility).Respects drainContract state := by
  unfold Thread.Respects drainOnce
  rw [Thread.meets_bind, Thread.meets_attempt]
  refine .statement ?_ ?_ fun _ _ _ kept => ⟨.refl kept, trivial⟩
  · rintro later now _ _ _ kept - - ⟨⟩
    refine ⟨.granted kept drainer limit visibility now, ?_⟩
    have start : ∀ obligation ∈ claimBatch limit now later.books,
        obligation ∈ (later.grant drainer limit visibility now).books.db.webhookOutbox :=
      fun obligation mem => (mem_of_claimBatch mem).1
    refine Thread.Meets.mono (.forM (fun rest state => ∀ obligation ∈ rest,
      obligation ∈ state.books.db.webhookOutbox) ?_ start) (fun _ _ _ => trivial) fun _ _ failed => failed
    intro obligation rest state known
    refine Thread.Meets.mono (dispatchObligation_meets (known obligation (List.mem_cons_self ..))) ?_
      fun _ _ failed => failed
    exact fun _ later grows other mem => grows.obligations (known other (List.mem_cons_of_mem _ mem))
  · rintro later now _ _ _ _ kept - - ⟨⟩
    exact ⟨.granted kept drainer limit visibility now, trivial⟩

/-- The event consumer adds obligations and touches no column of theirs. -/
theorem Acts.applied (kept : Orderly state) (obliges : Obliges state.books.db db) :
    Acts state { state with books := { state.books with db := db } } := by
  refine ⟨⟨obliges.unique kept.unique, ?_, kept.stamped, kept.exclusive⟩, obliges.keeps, List.Subset.refl _⟩
  intro key dispatched
  obtain ⟨obligation, mem, isKey, grounds⟩ := kept.grounded key dispatched
  exact ⟨obligation, obliges.keeps mem, isKey, grounds⟩

/-! ## Every run -/

/-- The contracts of drainers and the event consumer. -/
def outboxSpec (divide : Division) (limit : Nat) (visibility : Time) :
    Service.Spec (outboxDesk divide limit visibility) where
  invariant := Orderly
  rely _ := Grows
  guarantee _ _ := Acts
  fresh _ _ := True
  post _ _ _ _ := True
  failure _ _ _ _ := True
  assumes := False

theorem outbox_sound (divide : Division) (limit : Nat) (visibility : Time) :
    (outboxSpec divide limit visibility).Sound where
  initially := by
    rintro state ⟨noObligation, noColumn, noPast, noGrant⟩
    refine ⟨⟨?_, ?_, ?_, ?_⟩, fun _ => trivial⟩
    · rw [noObligation]
      exact List.nodup_nil
    · intro key dispatched
      exact absurd (by rw [noColumn key]) dispatched
    · rw [noGrant]
      exact fun _ mem => nomatch mem
    · rw [noGrant]
      exact .nil
  refl _ state := .refl state
  trans early late := early.trans late
  keeps _ acts := acts.kept
  compatible _ _ acts := acts.grows
  freshKept _ _ _ := trivial
  postStable _ _ := trivial
  failureStable _ _ := trivial
  meets := by
    intro request drainer state _ _
    cases request with
    | drainOnce =>
      exact (drainOnce_meets drainer limit visibility state).embed (fun _ _ => rfl) (fun _ => trivial)
        (fun kept => kept) (fun grows => grows) (fun _ acts => acts) (fun _ => trivial) (fun _ => trivial) id
    | apply delivery event =>
      exact (Interleaved.handleEvent_writes (fun _ => Obliges.of_eq rfl) (fun _ _ _ => .inr trivial)
        obliges_of_call delivery).embed_meets (fun kept obliges => Acts.applied kept obliges) state

/--
There is one obligation for a payment and event.  At any time from the latest
that a claim names on, at most one grant of an obligation has not run out.  An
obligation is marked dispatched only on grounds that a drainer saw before.
-/
theorem payments_announced {divide : Division} {limit : Nat} {visibility : Time}
    {pool : Pool OutboxRequest Time OutboxError DrainState Unit}
    (reached : (outboxDesk divide limit visibility).system.Reachable pool) :
    (pool.shared.books.db.webhookOutbox.map obligationKey).Nodup ∧
      (∀ now, pool.shared.clock ≤ now → ∀ grant ∈ pool.shared.grants, ∀ other ∈ pool.shared.grants,
        grant.key = other.key → now ≤ grant.deadline → now ≤ other.deadline → grant = other) ∧
      ∀ obligation ∈ pool.shared.books.db.webhookOutbox,
        (pool.shared.books.outbox (obligationKey obligation)).dispatchedAt ≠ none →
          Grounds obligation pool.shared.past := by
  have kept : Orderly pool.shared := ((outbox_sound divide limit visibility).always id reached).invariant
  refine ⟨kept.unique, ?_, ?_⟩
  · intro now late grant mem other memOther same unexpired unexpiredOther
    by_contra differ
    have lapses : pool.shared.grants.Pairwise fun newer older => newer.key = older.key →
        newer.deadline < pool.shared.clock ∨ older.deadline < pool.shared.clock :=
      kept.exclusive.imp fun lapses same => .inr (lapses same)
    have symmetric : Std.Symm fun newer older : Grant => newer.key = older.key →
        newer.deadline < pool.shared.clock ∨ older.deadline < pool.shared.clock :=
      ⟨fun _ _ lapses same => (lapses same.symm).symm⟩
    rcases lapses.forall mem memOther differ same with lapsed | lapsed
    · exact absurd (late.trans unexpired) (Nat.not_le_of_lt lapsed)
    · exact absurd (late.trans unexpiredOther) (Nat.not_le_of_lt lapsed)
  · intro obligation mem dispatched
    obtain ⟨other, memOther, isKey, grounds⟩ := kept.grounded _ dispatched
    rw [List.inj_on_of_nodup_map kept.unique memOther mem isKey] at grounds
    exact grounds

/-- The tables with an unpaid invoice, whose store has a webhook. -/
def shopBooks : Books where
  db := sampleDb
  outbox _ := ⟨none, none⟩
  webhooks := [⟨1, 1, [], [], true⟩]
  settings := []
  announced := []

def announcedPool : Pool OutboxRequest Time OutboxError DrainState Unit :=
  (outboxDesk (· / ·) 100 30).after ⟨shopBooks, [], [], 0⟩
    [.start (.apply (sampleDelivery 1) (.paymentDetected (sampleDetected 7 (10 ^ 18)))),
      .run 0 (.ok 1), .run 0 (.ok 1), .run 0 (.ok 1), .start .drainOnce, .run 1 (.ok 2), .run 1 (.ok 2),
      .run 1 (.ok 2), .run 1 (.ok 2), .run 1 (.ok 2), .run 1 (.ok 2), .run 1 (.ok 2)]

theorem announcedPool_grounded :
    announcedPool.shared.books.db.webhookOutbox = [⟨1, 1, "payment_detected"⟩] ∧
      Grounds ⟨1, 1, "payment_detected"⟩ announcedPool.shared.past := by
  have initial : (outboxDesk (· / ·) 100 30).initial ⟨shopBooks, [], [], 0⟩ :=
    ⟨by decide +kernel, fun _ => rfl, rfl, rfl⟩
  have reached : (outboxDesk (· / ·) 100 30).system.Reachable announcedPool :=
    Service.reachable_of_answered initial (fun _ => trivial) (by decide)
  refine ⟨by decide +kernel, (payments_announced reached).2.2 _ (by decide +kernel) (by decide +kernel)⟩

end EthPayServer.Webhook.Drain
