import EthPayServer.Lib.Worker
import EthPayServer.Pipeline.Server
import EthPayServer.Webhook.Announced

/-!
# Announcing that an invoice settled

`confirmation_handler.rs` and `apply_envelope`.  The consumer takes the events of
the outbox one after the other.  A confirmation that settles an invoice writes
its status, reads the invoice again and queues a webhook for its store; then the
cursor moves past the event.  The process may crash anywhere and starts again
from the cursor.
-/

namespace EthPayServer.Webhook.Settled

open Lib Data Consumer Pipeline Drain
open Evm (Time Uuid MonitorEvent PaymentConfirmed hashText)

/-! ## The consumer -/

/-- What became of the webhook of an application that settled an invoice, or of one that settled none. -/
inductive Announcing where
  | nothing
  /-- the invoice could not be read again -/
  | unread
  | queue (outcome : QueueOutcome)
deriving DecidableEq

/-- How the cursor came to move past an event. -/
inductive Passage where
  /-- the operator named the event in `EVENT_SKIP_EVENTS` -/
  | skipped
  | applied (announcing : Announcing)
deriving DecidableEq

/-- An invoice that an application of the event at a position settled. -/
structure Move where
  position : Nat
  invoiceId : Uuid
  status : InvoiceStatus
deriving DecidableEq

structure Commit where
  position : Nat
  passage : Passage
deriving DecidableEq

/-- The tables and the delivery queue, the position of the next event, and what was settled and committed. -/
structure Feed where
  drain : DrainState
  cursor : Nat
  moved : List Move
  commits : List Commit

abbrev Feed.db (feed : Feed) : Db := feed.drain.books.db

abbrev FeedT : Type → Type := Thread Time OutboxError Feed

def dbView : Thread.View Db EventConsumerError Feed OutboxError where
  part := Feed.db
  replace db feed := { feed with drain := { feed.drain with books := { feed.drain.books with db := db } } }
  fault := Sum.elim id .database
  report := .inl

def booksView : Thread.View DrainState RepositoryError Feed OutboxError where
  part := Feed.drain
  replace drain feed := { feed with drain := drain }
  fault := Sum.elim (fun _ => refused "stopped") id
  report := .inr

def announcementOf : InvoiceStatus → WebhookEventType
  | .latePaid => .latePaid
  | _ => .paymentConfirmed

/-- The reads and the decision of `settle_invoice`: the status that was read, and the one that is due. -/
def settlement (invoiceId : Uuid) : Interleaved.ConsumerT (Option (InvoiceStatus × InvoiceStatus)) :=
  settleWith invoiceId none fun seen decided => pure (some (seen, decided))

/-- With the write of the status it is the settlement of the event consumer. -/
theorem settleInvoice_eq (relied : Uuid → InvoiceStatus → Db → Prop) (invoiceId : Uuid) :
    Interleaved.settleInvoice relied invoiceId = (do
      match ← settlement invoiceId with
      | none => pure ()
      | some (seen, decided) => Interleaved.decideStatus relied invoiceId seen decided) := by
  unfold Interleaved.settleInvoice settlement settleWith
  rw [bind_assoc]
  congr 1
  funext found
  cases found with
  | none => rfl
  | some invoice =>
    simp only [bind_assoc]
    congr 1
    funext tolerance
    cases effectiveTolerance tolerance with
    | error message => rfl
    | ok chosen =>
      simp only
      cases settledStatus invoice.status with
      | none => rfl
      | some settled =>
        simp only
        split
        · simp only [bind_assoc, pure_bind]
        · rfl

/-- One statement on the payment tables, and what is noted of it. -/
def onDb (run : Time → Db → Except RepositoryError (Unit × Db)) (note : Feed → Feed) : FeedT Unit :=
  Thread.statement fun now feed =>
    match run now feed.db with
    | .ok (_, db) => .ok ((), note (dbView.replace db feed))
    | .error e => .error (.inl (.database e))

def moveTo (move : Move) : FeedT Unit :=
  onDb (fun _ db => updateStatus move.invoiceId move.status db) fun feed =>
    { feed with moved := feed.moved ++ [move] }

/-- Nothing is done about a read or a queueing that fails. -/
def announce (move : Move) (payment : Payment) : FeedT Announcing := do
  match ← ((see fun books => getInvoice move.invoiceId books.db).embed booksView).attempt with
  | .ok (some updated) => do
    let outcome ← (queueForStore (announcementOf move.status) updated payment).embed booksView
    pure (.queue outcome)
  | _ => pure .unread

def handlePaymentConfirmed (position : Nat) (event : PaymentConfirmed) : FeedT Announcing := do
  match ← Thread.query fun feed =>
      getByTxIndex event.invoiceId (hashText event.txHash) event.txIndex (Feed.db feed) with
  | none => pure .nothing
  | some payment => do
    onDb (markConfirmed payment.id event.confirmedAt) id
    match ← (settlement event.invoiceId).embed dbView with
    | none => pure .nothing
    | some (_, settled) => do
      moveTo ⟨position, event.invoiceId, settled⟩
      announce ⟨position, event.invoiceId, settled⟩ payment

variable (divide : Division) (delivery : Delivery) (events : Nat → MonitorEvent)

/-- The other events announce through obligations, or announce nothing that settled. -/
def handleEvent (divide : Division) (delivery : Delivery) (position : Nat) (event : MonitorEvent) :
    FeedT Announcing :=
  match event with
  | .paymentConfirmed event => handlePaymentConfirmed position event
  | event => do
    (Interleaved.handleEvent (fun _ _ _ => True) divide delivery event).embed dbView
    pure .nothing

/-- The cursor only moves forward. -/
def commitChainCursor (commit : Commit) : FeedT Unit :=
  Thread.statement fun _ feed => .ok ((), { feed with
    cursor := max feed.cursor (commit.position + 1)
    commits := feed.commits ++ [commit] })

/-- Take the event at the cursor; an error halts the process with the cursor where it is. -/
def applyEnvelope (events : Nat → MonitorEvent) (divide : Division) (delivery : Delivery) (skip : Bool) :
    FeedT Unit := do
  let position ← Thread.query Feed.cursor
  if skip then commitChainCursor ⟨position, .skipped⟩
  else do
    let announcing ← handleEvent divide delivery position (events position)
    commitChainCursor ⟨position, .applied announcing⟩

/-! ## Beside the consumer -/

def Persist (db db' : Db) : Prop :=
  ∀ invoice ∈ db.invoices.rows, ∃ later ∈ db'.invoices.rows,
    later.id = invoice.id ∧ later.storeId = invoice.storeId

theorem Persist.refl (db : Db) : Persist db db := fun invoice mem => ⟨invoice, mem, rfl, rfl⟩

theorem Persist.trans {db db' db'' : Db} (first : Persist db db') (second : Persist db' db'') :
    Persist db db'' := by
  intro invoice mem
  obtain ⟨later, memLater, sameId, sameStore⟩ := first invoice mem
  obtain ⟨last, memLast, isLater, isStore⟩ := second later memLater
  exact ⟨last, memLast, isLater.trans sameId, isStore.trans sameStore⟩

/-- What other writers do: invoices and settings, the webhooks of stores, and what the outbox drainers do. -/
inductive Other : Feed → Feed → Prop
  | admin (feed : Feed) {db : Db} (write : AdminWrite feed.db db) (persist : Persist feed.db db) :
      Other feed (dbView.replace db feed)
  | configure (feed : Feed) (webhooks : List StoreWebhook) (settings : List StoreSettings) :
      Other feed { feed with drain := { feed.drain with
        books := { feed.drain.books with webhooks := webhooks, settings := settings } } }
  | drained (feed : Feed) (drain : DrainState) (sameDb : drain.books.db = feed.db)
      (sameWebhooks : drain.books.webhooks = feed.drain.books.webhooks)
      (sameSettings : drain.books.settings = feed.drain.books.settings)
      (grows : ∀ announcement ∈ feed.drain.books.announced, announcement ∈ drain.books.announced) :
      Other feed { feed with drain := drain }

def Wants (books : Books) (storeId : Uuid) (eventType : WebhookEventType) : Prop :=
  suppressed storeId eventType.asStr books = false ∧ (getEnabledWebhook storeId books).isSome = true

/-- An invoice, and the event by which its settlement is announced. -/
structure Subject where
  invoiceId : Uuid
  eventType : WebhookEventType

def Subject.Covers (subject : Subject) (invoiceId : Uuid) (status : InvoiceStatus) : Prop :=
  invoiceId = subject.invoiceId ∧ announcementOf status = subject.eventType

def Keeps (subject : Subject) (books : Books) : Prop :=
  ∀ invoice ∈ books.db.invoices.rows, invoice.id = subject.invoiceId →
    Wants books invoice.storeId subject.eventType

instance (books : Books) (storeId : Uuid) (eventType : WebhookEventType) :
    Decidable (Wants books storeId eventType) :=
  inferInstanceAs (Decidable (_ ∧ _))

instance (subject : Subject) (books : Books) : Decidable (Keeps subject books) :=
  List.decidableBAll _ _

structure Attempt where
  delivery : Delivery
  skip : Bool

/-- The consumer on a stream of events, while the store of one invoice wants to hear of one event. -/
def consumer (events : Nat → MonitorEvent) (divide : Division) (subject : Subject) :
    Duty Attempt Time OutboxError Feed Unit where
  initial feed := feed.moved = [] ∧ feed.commits = []
  legal feed _ := Keeps subject feed.drain.books
  others := Other
  body attempt := applyEnvelope events divide attempt.delivery attempt.skip

/-! ## What one call leaves -/

def Told (books : Books) (move : Move) : Prop :=
  ∃ announcement ∈ books.announced, announcement.invoice.id = move.invoiceId ∧
    announcement.eventType = announcementOf move.status

/-- A commit of an application that read the invoice again and did not fail to queue. -/
def Passage.Unfailed : Passage → Prop
  | .applied .nothing => True
  | .applied (.queue .queued) => True
  | .applied (.queue .skipped) => True
  | _ => False

def Blocked (events : Nat → MonitorEvent) (position : Nat) (db : Db) : Prop :=
  ∃ event row, events position = .paymentConfirmed event ∧
    getByTxIndex event.invoiceId (hashText event.txHash) event.txIndex db = some row ∧ row.confirmedAt ≠ none

/-- The payments, the cursor and the record are the same; jobs and invoices are still there. -/
structure Same (feed feed' : Feed) : Prop where
  payments : feed'.db.payments = feed.db.payments
  cursor : feed'.cursor = feed.cursor
  moved : feed'.moved = feed.moved
  commits : feed'.commits = feed.commits
  announced : ∀ announcement ∈ feed.drain.books.announced, announcement ∈ feed'.drain.books.announced
  persist : Persist feed.db feed'.db

theorem Same.refl (feed : Feed) : Same feed feed :=
  ⟨rfl, rfl, rfl, rfl, fun _ mem => mem, Persist.refl _⟩

theorem Same.trans {s t u : Feed} (first : Same s t) (second : Same t u) : Same s u :=
  ⟨second.payments.trans first.payments, second.cursor.trans first.cursor, second.moved.trans first.moved,
    second.commits.trans first.commits, fun _ mem => second.announced _ (first.announced _ mem),
    first.persist.trans second.persist⟩

theorem Other.same {feed feed' : Feed} (other : Other feed feed') : Same feed feed' := by
  cases other with
  | admin write persist => exact ⟨write.samePayments, rfl, rfl, rfl, fun _ mem => mem, persist⟩
  | configure webhooks settings => exact ⟨rfl, rfl, rfl, rfl, fun _ mem => mem, Persist.refl _⟩
  | drained drain sameDb sameWebhooks sameSettings grows =>
    refine ⟨congrArg Db.payments sameDb, rfl, rfl, rfl, grows, ?_⟩
    change Persist feed.db drain.books.db
    rw [sameDb]
    exact Persist.refl _

variable {position : Nat}

theorem Blocked.of_payments {events : Nat → MonitorEvent} {db db' : Db} (blocked : Blocked events position db)
    (same : db'.payments = db.payments) : Blocked events position db' := by
  obtain ⟨event, row, isEvent, found, confirmed⟩ := blocked
  refine ⟨event, row, isEvent, ?_, confirmed⟩
  rw [getByTxIndex, same]
  exact found

variable {books books' : Books}

theorem Told.mono {move : Move} (told : Told books move)
    (grows : ∀ announcement ∈ books.announced, announcement ∈ books'.announced) : Told books' move := by
  obtain ⟨announcement, mem, isMove⟩ := told
  exact ⟨announcement, grows announcement mem, isMove⟩

/-- No application of the event at the position settled an invoice. -/
def NoMove (position : Nat) (feed : Feed) : Prop := ∀ move ∈ feed.moved, move.position ≠ position

section Invariant

variable (subject : Subject)

/--
An invoice is settled by the event at the cursor or before it.  While its event
is at the cursor, a further application finds the payment confirmed; once the
cursor is past the event, the settlement was announced, or the application says
why not.
-/
structure Inv (feed : Feed) : Prop where
  moved : ∀ move ∈ feed.moved, move.position ≤ feed.cursor
  committed : ∀ commit ∈ feed.commits, commit.position < feed.cursor
  blocked : ∀ move ∈ feed.moved, move.position = feed.cursor → Blocked events feed.cursor feed.db
  told : ∀ commit ∈ feed.commits, ∀ move ∈ feed.moved, move.position = commit.position →
    subject.Covers move.invoiceId move.status → commit.passage.Unfailed → Told feed.drain.books move

variable {events subject} {feed feed' : Feed}

theorem Inv.same (inv : Inv events subject feed) (same : Same feed feed') : Inv events subject feed' where
  moved := by
    rw [same.moved, same.cursor]
    exact inv.moved
  committed := by
    rw [same.commits, same.cursor]
    exact inv.committed
  blocked := by
    rw [same.moved, same.cursor]
    exact fun move mem here => (inv.blocked move mem here).of_payments same.payments
  told := by
    rw [same.moved, same.commits]
    intro commit isCommit move isMove here own unfailed
    exact (inv.told commit isCommit move isMove here own unfailed).mono same.announced

/-- The status is written while the event is at the cursor and finds its payment confirmed. -/
theorem Inv.move (inv : Inv events subject feed) {move : Move} (here : move.position = feed.cursor) {db : Db}
    (blocked : Blocked events feed.cursor db) :
    Inv events subject { dbView.replace db feed with moved := feed.moved ++ [move] } where
  moved other mem := by
    rcases List.mem_append.mp mem with old | new
    · exact inv.moved other old
    · rw [List.mem_singleton.mp new]
      exact here.le
  committed := inv.committed
  blocked _ _ _ := blocked
  told commit isCommit other mem at_ own unfailed := by
    rcases List.mem_append.mp mem with old | new
    · exact inv.told commit isCommit other old at_ own unfailed
    · have before : commit.position < feed.cursor := inv.committed commit isCommit
      rw [List.mem_singleton.mp new, here] at at_
      omega

variable (subject) in
/-- The event at the cursor was applied, and what it settled was announced unless it says otherwise. -/
def Applied (position : Nat) (announcing : Announcing) (feed : Feed) : Prop :=
  feed.cursor = position ∧ ∀ move ∈ feed.moved, move.position = position →
    subject.Covers move.invoiceId move.status → (Passage.applied announcing).Unfailed →
      Told feed.drain.books move

/-- The cursor moves past an event that was applied, or that the operator skips. -/
theorem Inv.commit (inv : Inv events subject feed) {passage : Passage}
    (passed : ∀ move ∈ feed.moved, move.position = feed.cursor →
      subject.Covers move.invoiceId move.status → passage.Unfailed → Told feed.drain.books move) :
    Inv events subject { feed with
      cursor := max feed.cursor (feed.cursor + 1)
      commits := feed.commits ++ [⟨feed.cursor, passage⟩] } where
  moved move mem := (inv.moved move mem).trans (le_max_left _ _)
  committed commit mem := by
    rcases List.mem_append.mp mem with old | new
    · exact (inv.committed commit old).trans_le (le_max_left _ _)
    · rw [List.mem_singleton.mp new]
      exact lt_max_of_lt_right (Nat.lt_succ_self _)
  blocked move mem at_ := by
    have before := inv.moved move mem
    simp only at at_
    omega
  told commit isCommit move mem at_ own unfailed := by
    rcases List.mem_append.mp isCommit with old | new
    · exact inv.told commit old move mem at_ own unfailed
    · rw [List.mem_singleton.mp new] at at_ unfailed
      exact passed move mem at_ own unfailed

/-- The event at the cursor settled nothing so far. -/
def Untouched (position : Nat) (feed : Feed) : Prop := feed.cursor = position ∧ NoMove position feed

theorem Untouched.same (untouched : Untouched position feed) (same : Same feed feed') :
    Untouched position feed' := by
  obtain ⟨here, none⟩ := untouched
  refine ⟨same.cursor.trans here, ?_⟩
  rw [NoMove, same.moved]
  exact none

theorem Untouched.applied (untouched : Untouched position feed) (announcing : Announcing) :
    Applied subject position announcing feed :=
  ⟨untouched.1, fun move mem here => absurd here (untouched.2 move mem)⟩

theorem Inv.untouched (inv : Inv events subject feed) (here : feed.cursor = position)
    (free : ¬ Blocked events position feed.db) : Untouched position feed := by
  subst here
  exact ⟨rfl, fun move mem at_ => free (inv.blocked move mem at_)⟩

/-- A write of the tables keeps the invariant while nothing was settled at the cursor. -/
theorem Inv.of_untouched (inv : Inv events subject feed) (untouched : Untouched position feed) {db : Db} :
    Inv events subject (dbView.replace db feed) := by
  obtain ⟨here, none⟩ := untouched
  refine ⟨inv.moved, inv.committed, ?_, inv.told⟩
  intro move mem at_
  exact absurd (at_.trans here) (none move mem)

variable (events) in
/-- The payment of the event at the cursor is confirmed, and nothing is settled so far. -/
def Confirming (position : Nat) (feed : Feed) : Prop :=
  Untouched position feed ∧ Blocked events position feed.db

theorem Confirming.same (confirming : Confirming events position feed) (same : Same feed feed') :
    Confirming events position feed' :=
  ⟨confirming.1.same same, confirming.2.of_payments same.payments⟩

def Settling (move : Move) (feed : Feed) : Prop :=
  feed.cursor = move.position ∧ ∀ other ∈ feed.moved, other.position = move.position → other = move

theorem Settling.same {move : Move} (settling : Settling move feed) (same : Same feed feed') :
    Settling move feed' := by
  obtain ⟨here, only⟩ := settling
  refine ⟨same.cursor.trans here, ?_⟩
  rw [same.moved]
  exact only

end Invariant

/-! ## The contract of an application -/

variable {invoice : Invoice} {state : DrainState} {event : PaymentConfirmed}

section Contracts

variable {subject : Subject}

def Stored (invoice : Invoice) (books : Books) : Prop :=
  ∃ row ∈ books.db.invoices.rows, row.id = invoice.id ∧ row.storeId = invoice.storeId

theorem Keeps.wants (keeps : Keeps subject books) (stored : Stored invoice books) {status : InvoiceStatus}
    (own : subject.Covers invoice.id status) : Wants books invoice.storeId (announcementOf status) := by
  obtain ⟨row, mem, isInvoice, isStore⟩ := stored
  rw [own.2, ← isStore]
  exact keeps row mem (isInvoice.trans own.1)

/-- Reads and jobs: the tables are left alone, and no job is taken back. -/
def deskContract (subject : Subject) : Thread.Contract Time RepositoryError DrainState where
  legal state _ := Keeps subject state.books
  invariant _ := True
  rely state state' := Persist state.books.db state'.books.db ∧
    ∀ announcement ∈ state.books.announced, announcement ∈ state'.books.announced
  guarantee state state' := state'.books.db = state.books.db ∧
    ∀ announcement ∈ state.books.announced, announcement ∈ state'.books.announced
  assumes := False

theorem Stored.relied (stored : Stored invoice books) (persist : Persist books.db books'.db) :
    Stored invoice books' := by
  obtain ⟨row, mem, isInvoice, isStore⟩ := stored
  obtain ⟨later, memLater, isRow, sameStore⟩ := persist row mem
  exact ⟨later, memLater, isRow.trans isInvoice, sameStore.trans isStore⟩

section

variable (stored : Stored invoice state.books)
include stored

/-- A read that is answered saw tables in which the store of the invoice wants to hear of it. -/
theorem see_meets (read : Books → α) :
    (see read).attempt.Meets (deskContract subject)
      (fun answer later => Stored invoice later.books ∧ ∀ a, answer = .ok a →
        ∃ books, Keeps subject books ∧ Stored invoice books ∧ a = read books) (fun _ _ => True) state := by
  rw [Thread.meets_attempt]
  refine Thread.Meets.statement ?_ ?_ ?_
  · rintro later now a after relied - - keeps ⟨⟩
    have still := stored.relied relied.1
    refine ⟨⟨rfl, fun _ mem => mem⟩, still, ?_⟩
    rintro _ ⟨⟩
    exact ⟨later.books, keeps, still, rfl⟩
  · rintro later now e a after relied - - - ⟨⟩
    exact ⟨⟨rfl, fun _ mem => mem⟩, stored.relied relied.1, fun _ isOk => nomatch isOk⟩
  · intro later e relied _
    exact ⟨⟨rfl, fun _ mem => mem⟩, stored.relied relied.1, fun _ isOk => nomatch isOk⟩

/-- Only a store that does not want to hear suppresses the event. -/
theorem suppressedByPrefs_meets (status : InvoiceStatus) :
    (suppressedByPrefs invoice.storeId (announcementOf status).asStr).Meets (deskContract subject)
      (fun isSuppressed later => Stored invoice later.books ∧
        (isSuppressed = true → ¬ subject.Covers invoice.id status))
      (fun _ _ => True) state := by
  unfold suppressedByPrefs
  refine (see_meets stored _).bind ?_
  rintro answer later ⟨still, seen⟩
  cases answer with
  | error e => exact ⟨still, fun isTrue => nomatch isTrue⟩
  | ok isSuppressed =>
    refine ⟨still, ?_⟩
    rintro rfl own
    obtain ⟨books, keeps, was, isRead⟩ := seen true rfl
    rw [(keeps.wants was own).1] at isRead
    cases isRead

/-- A job that is queued says the invoice, and nothing is skipped for a store that wants to hear. -/
theorem queueForStore_meets (status : InvoiceStatus) (payment : Payment) :
    (queueForStore (announcementOf status) invoice payment).Meets (deskContract subject)
      (fun outcome later => subject.Covers invoice.id status → (Passage.applied (.queue outcome)).Unfailed →
        ∃ announcement ∈ later.books.announced, announcement.invoice = invoice ∧
          announcement.eventType = announcementOf status) (fun _ _ => True) state := by
  unfold queueForStore
  refine (suppressedByPrefs_meets stored status).bind ?_
  rintro isSuppressed between ⟨still, unwanted⟩
  cases isSuppressed with
  | true =>
    intro own _
    exact absurd own (unwanted rfl)
  | false =>
    simp only [Bool.false_eq_true, if_false]
    refine (see_meets still _).bind ?_
    rintro answer later ⟨-, seen⟩
    cases answer with
    | error e =>
      rintro - ⟨⟩
    | ok found =>
      cases found with
      | none =>
        intro own _
        obtain ⟨books, keeps, was, isRead⟩ := seen none rfl
        have enabled := (keeps.wants was own).2
        rw [← isRead] at enabled
        cases enabled
      | some webhook =>
        rw [Thread.meets_bind, Thread.meets_attempt]
        refine Thread.Meets.statement ?_ ?_ ?_
        · rintro last now a after - - - - ⟨⟩
          exact ⟨⟨rfl, fun _ mem => List.mem_cons_of_mem _ mem⟩,
            fun _ _ => ⟨_, List.mem_cons_self, rfl, rfl⟩⟩
        · rintro last now e a after - - - - ⟨⟩
          refine ⟨⟨rfl, fun _ mem => List.mem_cons_of_mem _ mem⟩, ?_⟩
          rintro - ⟨⟩
        · intro last e _ _
          refine ⟨⟨rfl, fun _ mem => mem⟩, ?_⟩
          rintro - ⟨⟩

end

variable (events : Nat → MonitorEvent) (subject)

/-- An application keeps the invariant; only its own writes move the payments, the cursor and the record. -/
def feedContract : Thread.Contract Time OutboxError Feed where
  legal feed _ := Keeps subject feed.drain.books
  invariant := Inv events subject
  rely := Same
  guarantee feed feed' := Inv events subject feed → Inv events subject feed'
  assumes := False

/-- A part of an application that leaves the payments, the cursor and the record alone. -/
def idleContract : Thread.Contract Time OutboxError Feed where
  legal feed _ := Keeps subject feed.drain.books
  invariant _ := True
  rely := Same
  guarantee := Same
  assumes := False

variable {events subject} {feed : Feed}

/-- An idle part keeps what such parts and the others keep. -/
theorem carry_idle {thread : FeedT α} {post : α → Feed → Prop} {failure : OutboxError → Feed → Prop}
    {Q : Feed → Prop} (stable : ∀ {s t}, Same s t → Q s → Q t)
    (meets : thread.Meets (idleContract subject) post failure feed) (holds : Q feed) :
    thread.Meets (feedContract subject events) (fun a t => post a t ∧ Q t) failure feed := by
  refine Thread.Meets.carry ?_ ?_ ?_ ?_ meets holds id
  · intro t answer keeps
    exact keeps
  · intro s t same holds
    exact ⟨same, stable same holds⟩
  · intro t _ _
    trivial
  · intro t u _ holds same
    exact ⟨fun inv => inv.same same, stable same holds⟩

theorem embed_desk {thread : DrainT α} {post : α → DrainState → Prop}
    {failure : RepositoryError → DrainState → Prop}
    (meets : thread.Meets (deskContract subject) post failure feed.drain) :
    (thread.embed booksView).Meets (idleContract subject) (fun a later => post a later.drain)
      (fun _ _ => True) feed := by
  refine Thread.Meets.embed (fun _ _ => rfl) ?_ ?_ ?_ ?_ ?_ ?_ meets id
  · intro later answer keeps
    exact keeps
  · intro later _
    trivial
  · intro later last same
    exact ⟨same.persist, same.announced⟩
  · intro before drain _ kept
    obtain ⟨sameDb, grows⟩ := kept
    refine ⟨congrArg Db.payments sameDb, rfl, rfl, rfl, grows, ?_⟩
    change Persist before.db drain.books.db
    rw [sameDb]
    exact Persist.refl _
  · intro a later holds
    exact holds
  · intro e later _
    trivial

/-- What `settlement` may write: a shortfall that is accepted. -/
theorem settlement_writes (id : Uuid) : (settlement id).Writes SameMoney False :=
  Interleaved.settleWith_writes id SameMoney.refl (fun done => recordSettlementAllowance_ok done) fun _ => .pure _

/-- The settlement is idle until the status is written. -/
theorem settlement_idle (id : Uuid) :
    ((settlement id).embed dbView).Respects (idleContract subject) feed := by
  refine (settlement_writes id).embed_meets ?_ feed
  intro before db _ same
  have sameInvoices : db.invoices = before.db.invoices := same.invoices
  refine ⟨same.payments, rfl, rfl, rfl, fun _ mem => mem, ?_⟩
  intro invoice mem
  rw [← sameInvoices] at mem
  exact ⟨invoice, mem, rfl, rfl⟩

/-- What `announce` hears: a job that says the move, unless a read or the queue failed. -/
theorem announce_idle (move : Move) (payment : Payment) :
    (announce move payment).Meets (idleContract subject)
      (fun announcing later => subject.Covers move.invoiceId move.status →
        (Passage.applied announcing).Unfailed → Told later.drain.books move) (fun _ _ => True) feed := by
  unfold announce
  rw [Thread.meets_bind, Thread.meets_attempt]
  have reads : (see fun books => getInvoice move.invoiceId books.db).Meets (deskContract subject)
      (fun found later => ∀ updated, found = some updated → updated.id = move.invoiceId ∧
        Stored updated later.books) (fun _ _ => True) feed.drain := by
    refine Thread.Meets.statement ?_ ?_ ?_
    · rintro later now found after - - - - ⟨⟩
      refine ⟨⟨rfl, fun _ mem => mem⟩, ?_⟩
      intro updated found
      obtain ⟨mem, isInvoice⟩ := Table.find?_eq_some.mp found
      exact ⟨isInvoice, updated, mem, rfl, rfl⟩
    · rintro later now e found after - - - - ⟨⟩
      exact ⟨⟨rfl, fun _ mem => mem⟩, trivial⟩
    · intro later e _ _
      exact ⟨⟨rfl, fun _ mem => mem⟩, trivial⟩
  refine (embed_desk reads).mono ?_ ?_
  · intro found later known
    cases found with
    | none =>
      rintro - ⟨⟩
    | some updated =>
      obtain ⟨isInvoice, stored⟩ := known updated rfl
      refine (embed_desk (queueForStore_meets stored move.status payment)).bind ?_
      intro outcome last queued own unfailed
      obtain ⟨announcement, mem, isUpdated, isEvent⟩ := queued ⟨isInvoice.trans own.1, own.2⟩ unfailed
      exact ⟨announcement, mem, by rw [isUpdated, isInvoice], isEvent⟩
  · rintro e later - - ⟨⟩

/-- What a statement on the tables must show. -/
theorem onDb_meets {run : Time → Db → Except RepositoryError (Unit × Db)} {note : Feed → Feed}
    {post : Feed → Prop}
    (write : ∀ {now later db}, Same feed later → Inv events subject later → run now later.db = .ok ((), db) →
      Inv events subject (note (dbView.replace db later)) ∧ post (note (dbView.replace db later))) :
    (onDb run note).Meets (feedContract subject events) (fun _ => post) (fun _ _ => True) feed := by
  refine Thread.Meets.statement ?_ ?_ fun _ _ _ _ => ⟨id, trivial⟩
  · intro later now a after same inv _ _ done
    cases ran : run now later.db with
    | error e =>
      rw [ran] at done
      cases done
    | ok result =>
      rw [ran] at done
      cases done
      obtain ⟨kept, holds⟩ := write same inv ran
      exact ⟨fun _ => kept, holds⟩
  intro later now e a after same inv _ _ done
  cases ran : run now later.db with
  | error e =>
    rw [ran] at done
    cases done
  | ok result =>
    rw [ran] at done
    cases done
    exact ⟨fun _ => (write same inv ran).1, trivial⟩

/-- A confirmation that is not refused finds its payment unconfirmed, and leaves it confirmed. -/
theorem markConfirmed_blocks {payment : Payment} {now : Time} {db db' : Db}
    (isEvent : events position = .paymentConfirmed event)
    (found : getByTxIndex event.invoiceId (hashText event.txHash) event.txIndex db = some payment)
    (done : markConfirmed payment.id event.confirmedAt now db = .ok ((), db')) :
    ¬ Blocked events position db ∧ Blocked events position db' := by
  constructor
  · rintro ⟨event', row, isEvent', found', confirmed⟩
    rw [isEvent] at isEvent'
    cases isEvent'
    rw [found] at found'
    cases found'
    obtain ⟨row, mem, sameId, unconfirmed, _⟩ := markConfirmed_ok done
    have isRow : row = payment := Table.eq_of_key mem (getByTxIndex_some found).1 sameId
    rw [isRow] at unconfirmed
    exact confirmed unconfirmed
  · exact ⟨event, _, isEvent, getByTxIndex_marked found done, fun isNone => nomatch isNone⟩

/-- No earlier application got as far as one that marks the payment. -/
theorem markConfirmed_meets {payment : Payment} (isEvent : events position = .paymentConfirmed event)
    (here : feed.cursor = position)
    (found : getByTxIndex event.invoiceId (hashText event.txHash) event.txIndex feed.db = some payment) :
    (onDb (markConfirmed payment.id event.confirmedAt) id).Meets (feedContract subject events)
      (fun _ => Confirming events position) (fun _ _ => True) feed := by
  refine onDb_meets ?_
  intro now later db same inv done
  have stillFound : getByTxIndex event.invoiceId (hashText event.txHash) event.txIndex later.db =
      some payment := by
    rw [getByTxIndex, same.payments]
    exact found
  obtain ⟨free, blocked⟩ := markConfirmed_blocks isEvent stillFound done
  have untouched := inv.untouched (same.cursor.trans here) free
  exact ⟨inv.of_untouched untouched, untouched, blocked⟩

theorem moveTo_meets {move : Move} (confirming : Confirming events move.position feed) :
    (moveTo move).Meets (feedContract subject events) (fun _ => Settling move) (fun _ _ => True) feed := by
  refine onDb_meets ?_
  intro now later db same inv done
  obtain ⟨⟨here, none⟩, blocked⟩ := confirming.same same
  have stays := blocked.of_payments (updateStatus_ok done).payments
  rw [← here] at stays
  refine ⟨inv.move here.symm stays, here, ?_⟩
  intro other mem at_
  rcases List.mem_append.mp mem with old | new
  · exact absurd at_ (none other old)
  · exact List.mem_singleton.mp new

theorem handlePaymentConfirmed_meets (isEvent : events position = .paymentConfirmed event)
    (here : feed.cursor = position) :
    (handlePaymentConfirmed position event).Meets (feedContract subject events)
      (Applied subject position) (fun _ _ => True) feed := by
  unfold handlePaymentConfirmed
  rw [Thread.meets_bind]
  refine Thread.Meets.query (fun _ => id) ?_ fun _ _ _ _ => trivial
  intro later same inv
  replace here := same.cursor.trans here
  cases found : getByTxIndex event.invoiceId (hashText event.txHash) event.txIndex later.db with
  | none =>
    refine (inv.untouched here ?_).applied _
    rintro ⟨event', row, isEvent', found', -⟩
    rw [isEvent] at isEvent'
    cases isEvent'
    rw [found] at found'
    cases found'
  | some payment =>
    simp only
    refine (markConfirmed_meets isEvent here found).bind ?_
    intro _ marked confirming
    rw [Thread.meets_bind]
    have settles : ((settlement event.invoiceId).embed dbView).Meets (feedContract subject events)
        (fun _ later => True ∧ Confirming events position later) (fun _ _ => True) marked :=
      carry_idle (fun same confirming => confirming.same same) (settlement_idle event.invoiceId) confirming
    refine settles.mono ?_ fun _ _ _ => trivial
    rintro decided between ⟨-, confirming⟩
    cases decided with
    | none => exact confirming.1.applied _
    | some pair =>
      obtain ⟨seen, settled⟩ := pair
      simp only
      refine (moveTo_meets confirming).bind ?_
      intro _ moved settling
      refine (carry_idle (fun same settling => settling.same same) (announce_idle _ payment)
        settling).mono ?_ fun _ _ _ => trivial
      rintro announcing last ⟨told, here, only⟩
      refine ⟨here, ?_⟩
      intro move mem at_ own unfailed
      cases only move mem at_
      exact told own unfailed

def tablesContract : Thread.Contract Time OutboxError Feed where
  legal _ _ := True
  invariant _ := True
  rely _ _ := True
  guarantee feed feed' := ∃ db, feed' = dbView.replace db feed
  assumes := False

theorem unsettling_meets {event : MonitorEvent} (untouched : Untouched position feed) :
    (do (Interleaved.handleEvent (fun _ _ _ => True) divide delivery event).embed dbView
        pure Announcing.nothing : FeedT Announcing).Meets (feedContract subject events)
      (Applied subject position) (fun _ _ => True) feed := by
  rw [Thread.meets_bind]
  have writes : ((Interleaved.handleEvent (fun _ _ _ => True) divide delivery event).embed dbView).Respects
      tablesContract feed := by
    refine (Thread.Writes.any _).embed_meets ?_ feed
    intro before db _ _
    exact ⟨db, rfl⟩
  refine (Thread.Meets.carry ?_ ?_ ?_ ?_ writes untouched ?_).mono ?_ fun _ _ _ => trivial
  · intro t answer _
    trivial
  · intro s t same untouched
    exact ⟨trivial, untouched.same same⟩
  · intro t _ _
    trivial
  · rintro t u - untouched ⟨db, rfl⟩
    exact ⟨fun inv => inv.of_untouched untouched, untouched⟩
  · rintro ⟨⟩
  · rintro _ later ⟨-, untouched⟩
    exact untouched.applied _

theorem handleEvent_meets (inv : Inv events subject feed) (here : feed.cursor = position) :
    (handleEvent divide delivery position (events position)).Meets (feedContract subject events)
      (Applied subject position) (fun _ _ => True) feed := by
  have free : (∀ event, events position ≠ .paymentConfirmed event) → Untouched position feed := by
    intro other
    refine inv.untouched here ?_
    rintro ⟨event, row, isEvent, -⟩
    exact other event isEvent
  cases isEvent : events position with
  | paymentConfirmed event => exact handlePaymentConfirmed_meets isEvent here
  | paymentDetected event => exact unsettling_meets divide delivery (free (by simp [isEvent]))
  | reorgDetected event => exact unsettling_meets divide delivery (free (by simp [isEvent]))
  | notice event => exact unsettling_meets divide delivery (free (by simp [isEvent]))

theorem commitChainCursor_meets {passage : Passage} (here : feed.cursor = position)
    (passed : ∀ move ∈ feed.moved, move.position = position →
      subject.Covers move.invoiceId move.status → passage.Unfailed → Told feed.drain.books move) :
    (commitChainCursor ⟨position, passage⟩).Respects (feedContract subject events) feed := by
  have commits : ∀ {later}, Same feed later → Inv events subject later → Inv events subject { later with
      cursor := max later.cursor (position + 1), commits := later.commits ++ [⟨position, passage⟩] } := by
    intro later same inv
    have isHere := same.cursor.trans here
    subst isHere
    refine inv.commit ?_
    rw [same.moved]
    intro move mem at_ own unfailed
    exact (passed move mem at_ own unfailed).mono same.announced
  refine Thread.Meets.statement ?_ ?_ fun _ _ _ _ => ⟨id, trivial⟩
  · rintro later now a after same inv - - ⟨⟩
    exact ⟨fun _ => commits same inv, trivial⟩
  · rintro later now e a after same inv - - ⟨⟩
    exact ⟨fun _ => commits same inv, trivial⟩

theorem applyEnvelope_meets (skip : Bool) :
    (applyEnvelope events divide delivery skip).Respects (feedContract subject events) feed := by
  unfold Thread.Respects applyEnvelope
  rw [Thread.meets_bind]
  refine Thread.Meets.query (fun _ => id) ?_ fun _ _ _ _ => trivial
  intro later same inv
  cases skip with
  | true => exact commitChainCursor_meets rfl fun _ _ _ _ unfailed => nomatch unfailed
  | false =>
    simp only [Bool.false_eq_true, if_false]
    refine (handleEvent_meets divide delivery inv rfl).bind ?_
    rintro announcing applied ⟨here, told⟩
    exact commitChainCursor_meets here told

/-- The consumer keeps the contract of an application, from one start of the process to the next. -/
theorem consumer_sound :
    (consumer events divide subject).Sound (feedContract subject events) where
  initially := by
    rintro feed ⟨noMoves, noCommits⟩
    constructor <;> simp [noMoves, noCommits]
  legal keeps := keeps
  refl := Same.refl
  trans first second := first.trans second
  others inv other := ⟨other.same, inv.same other.same⟩
  keeps inv kept := kept inv
  free := id
  meets _ := applyEnvelope_meets divide _ _

end Contracts

/-! ## Every settlement is announced -/

/--
Whatever crashes, restarts and failures a run has: an invoice that a confirmation
settled has its job once the event is committed, unless the operator skipped the
event, or the application that was committed could not read the invoice again,
look up the webhook or queue the job.
-/
theorem settled_invoice_announced {events : Nat → MonitorEvent} {divide : Division} {move : Move}
    {worker : Worker Time OutboxError Feed Unit}
    (reached : (consumer events divide ⟨move.invoiceId, announcementOf move.status⟩).system.Reachable worker)
    (isMove : move ∈ worker.shared.moved) {commit : Commit} (isCommit : commit ∈ worker.shared.commits)
    (passes : commit.position = move.position) (unfailed : commit.passage.Unfailed) :
    Told worker.shared.drain.books move := by
  have inv : Inv events ⟨move.invoiceId, announcementOf move.status⟩ worker.shared :=
    ((consumer_sound divide).holds reached).invariant
  exact inv.told commit isCommit move isMove passes.symm ⟨rfl, rfl⟩ unfailed

/-! A store with a webhook that does not want `late_paid`, and the confirmation of its invoice's payment. -/

def sampleEvents (_ : Nat) : MonitorEvent := .paymentConfirmed (sampleConfirmed 7 (10 ^ 18))

def sampleFeed : Feed where
  drain :=
    { books :=
        { db := samplePaid
          outbox := fun _ => ⟨none, none⟩
          webhooks := [⟨1, 1, [], [], true⟩]
          settings := [⟨1, fun event _ => if event = "late_paid" then some false else none⟩]
          announced := [] }
      past := []
      grants := []
      clock := 0 }
  cursor := 0
  moved := []
  commits := []

def sampleConsumer : Duty Attempt Time OutboxError Feed Unit := consumer sampleEvents (· / ·) ⟨1, .paymentConfirmed⟩

def sampleLaunch (skip : Bool) : WorkerAction Attempt Time OutboxError Feed :=
  .launch ⟨sampleDelivery 2, skip⟩

def answered (count : Nat) : List (WorkerAction Attempt Time OutboxError Feed) :=
  List.replicate count (.call (.ok 0))

def unanswered : WorkerAction Attempt Time OutboxError Feed := .call (.failed (.inr (refused "connection lost")))

/-- The store of the invoice wants to hear of it whenever a call is answered. -/
def keepsCheck (feed : Feed) (action : WorkerAction Attempt Time OutboxError Feed) : Bool :=
  match action with
  | .launch _ => true
  | .call _ => decide (Keeps ⟨1, .paymentConfirmed⟩ feed.drain.books)
  | .other _ => false

theorem sampleConsumer_reachable {actions : List (WorkerAction Attempt Time OutboxError Feed)}
    (passed : sampleConsumer.checks keepsCheck ⟨sampleFeed, none⟩ actions = true) :
    sampleConsumer.system.Reachable (sampleConsumer.after sampleFeed actions) := by
  have initial : sampleConsumer.initial sampleFeed := ⟨rfl, rfl⟩
  refine Duty.reachable_of_checks ?_ initial passed
  intro feed action checked
  cases action with
  | launch attempt => trivial
  | call answer =>
    have keeps : Keeps ⟨1, .paymentConfirmed⟩ feed.drain.books := of_decide_eq_true checked
    exact keeps
  | other next => cases checked

def announcedRun : List (WorkerAction Attempt Time OutboxError Feed) := sampleLaunch false :: answered 11

theorem paid_invoice_announced :
    (⟨0, 1, .paid⟩ : Move) ∈ (sampleConsumer.after sampleFeed announcedRun).shared.moved ∧
    Told (sampleConsumer.after sampleFeed announcedRun).shared.drain.books ⟨0, 1, .paid⟩ := by
  have settled : (⟨0, 1, .paid⟩ : Move) ∈ (sampleConsumer.after sampleFeed announcedRun).shared.moved := by
    decide +kernel
  have committed : (⟨0, .applied (.queue .queued)⟩ : Commit) ∈
      (sampleConsumer.after sampleFeed announcedRun).shared.commits := by decide +kernel
  have reached := sampleConsumer_reachable (show sampleConsumer.checks keepsCheck ⟨sampleFeed, none⟩
    announcedRun = true by decide +kernel)
  exact ⟨settled, settled_invoice_announced reached settled committed rfl trivial⟩

/-! Four runs in which the event that settled the invoice is committed and no job says so. -/

/-- The delivery queue does not take the job. -/
def unqueuedRun : List (WorkerAction Attempt Time OutboxError Feed) :=
  sampleLaunch false :: answered 9 ++ [unanswered] ++ answered 1

/-- The webhook of the store cannot be looked up. -/
def unknownWebhookRun : List (WorkerAction Attempt Time OutboxError Feed) :=
  sampleLaunch false :: answered 8 ++ [unanswered] ++ answered 1

/-- The invoice cannot be read again. -/
def unreadRun : List (WorkerAction Attempt Time OutboxError Feed) :=
  sampleLaunch false :: answered 6 ++ [unanswered] ++ answered 1

/-- The process crashes after the write of the status, and the operator skips the event. -/
def skippedRun : List (WorkerAction Attempt Time OutboxError Feed) :=
  sampleLaunch false :: answered 6 ++ sampleLaunch true :: answered 2

/-- A run settles the invoice and commits the event without a job. -/
def Unannounced (run : List (WorkerAction Attempt Time OutboxError Feed)) : Prop :=
  sampleConsumer.system.Reachable (sampleConsumer.after sampleFeed run) ∧
    ⟨0, 1, .paid⟩ ∈ (sampleConsumer.after sampleFeed run).shared.moved ∧
    0 ∈ (sampleConsumer.after sampleFeed run).shared.commits.map Commit.position ∧
    ¬ Told (sampleConsumer.after sampleFeed run).shared.drain.books ⟨0, 1, .paid⟩

theorem Unannounced.of_checks {run : List (WorkerAction Attempt Time OutboxError Feed)}
    (passed : (sampleConsumer.checks keepsCheck ⟨sampleFeed, none⟩ run = true ∧
      ⟨0, 1, .paid⟩ ∈ (sampleConsumer.after sampleFeed run).shared.moved ∧
      0 ∈ (sampleConsumer.after sampleFeed run).shared.commits.map Commit.position) ∧
      (sampleConsumer.after sampleFeed run).shared.drain.books.announced.length = 0) : Unannounced run := by
  obtain ⟨⟨checked, settled, committed⟩, silent⟩ := passed
  refine ⟨sampleConsumer_reachable checked, settled, committed, ?_⟩
  rintro ⟨announcement, mem, -⟩
  rw [List.length_eq_zero_iff.mp silent] at mem
  cases mem

theorem paid_invoice_unannounced :
    Unannounced unqueuedRun ∧ Unannounced unknownWebhookRun ∧ Unannounced unreadRun ∧ Unannounced skippedRun :=
  ⟨.of_checks (by decide +kernel), .of_checks (by decide +kernel), .of_checks (by decide +kernel),
    .of_checks (by decide +kernel)⟩

end EthPayServer.Webhook.Settled
