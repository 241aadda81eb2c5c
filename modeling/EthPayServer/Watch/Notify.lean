import EthPayServer.Outbox.Cursors
import EthPayServer.Watch.Watched

/-!
# Telling the monitors what to watch

A watch command is published once the invoice is committed, and a retry pass
publishes the commands of rows that are not marked as sent.  Redis hands a
command to whoever is subscribed at that moment and answers that it was
published, also to nobody; the row is marked next.  Where every command finds a
subscriber, and no row is armed between its command and its mark, a marked row
is one a monitor was told about after the row was last armed.
-/

namespace EthPayServer.Watch

open Lib Data Consumer
open Evm (Time Uuid Address U256 parseAddress addressText parseAddress_lower parseAddress_addressText)

/-! ## Rows, commands and who hears them -/

/-- `MonitorCommand::WatchAddress`. -/
structure WatchAddressCommand where
  chainId : Nat
  address : Address
  invoiceId : Uuid
  expectedAmount : Option U256
  tokenContract : Option Address
deriving DecidableEq

def WatchAddressCommand.IsFor (command : WatchAddressCommand) (site : Site) : Prop :=
  parseAddress site.1 = some command.address ∧ site.2.1 = .evm command.chainId ∧
    site.2.2.map parseAddress = command.tokenContract.map some

instance (command : WatchAddressCommand) (site : Site) : Decidable (command.IsFor site) := by
  unfold WatchAddressCommand.IsFor
  infer_instance

/-- What tells one row of `watched_addresses` from another. -/
abbrev RowKey : Type := VarChar 42 × ChainId × Option (VarChar 42)

def rowKey (row : WatchedAddressRow) : RowKey := (row.address, row.chainId, row.tokenAddress)

inductive Notice where
  /-- the row was created, reused or reset -/
  | armed (key : RowKey)
  /-- a subscribed monitor was handed the command -/
  | received (command : WatchAddressCommand)
deriving DecidableEq

/-- The database, the monitor processes that are subscribed, and what happened so far, newest first. -/
structure Notices where
  db : Db
  subscribed : List Nat
  log : List Notice

def Notice.Tells (site : Site) : Notice → Prop
  | .received command => command.IsFor site
  | .armed _ => False

instance (site : Site) (notice : Notice) : Decidable (notice.Tells site) := by
  cases notice <;> unfold Notice.Tells <;> infer_instance

/-- Since the row was last armed a monitor was handed its command. -/
def ReceivedSinceArmed (log : List Notice) (row : WatchedAddressRow) : Prop :=
  ∃ notice ∈ log.takeWhile (· ≠ .armed (rowKey row)), notice.Tells (watchSite row)

instance (log : List Notice) (row : WatchedAddressRow) : Decidable (ReceivedSinceArmed log row) := by
  unfold ReceivedSinceArmed
  infer_instance

variable (state : Notices) (evmMonitor : Bool) (expectedAmount : Uuid → Option U256) (identity : Nat)

namespace Notices

/-- The transaction that creates an invoice; a row it wrote points at an option that is new. -/
def created (state : Notices) (db : Db) : Notices :=
  { state with
    db := db
    log := ((db.watchedAddresses.filter (· ∉ state.db.watchedAddresses)).map fun row =>
      .armed (rowKey row)) ++ state.log }

/-- PUBLISH: whoever is subscribed is handed the command, and nobody may be. -/
def publish (state : Notices) (command : WatchAddressCommand) : Notices :=
  if state.subscribed = [] then state else { state with log := .received command :: state.log }

/-- `mark_notified`: every row of the key, in any letter case. -/
def marked (state : Notices) (site : Site) : Notices :=
  { state with
    db := state.db.updateWatches
      (fun row => if watchSite row = site then { row with monitorNotified := true } else row)
      fun row => by
        split
        · rfl
        · rfl }

/-- `reset_chain_watch_notifications`. -/
def rearmed (state : Notices) (chainId : Nat) : Notices :=
  { state with
    db := state.db.updateWatches
      (fun row => if Outbox.isActiveOn chainId row then { row with monitorNotified := false } else row)
      fun row => by
        split
        · rfl
        · rfl
    log := ((state.db.watchedAddresses.filter (Outbox.isActiveOn chainId)).map fun row =>
      .armed (rowKey row)) ++ state.log }

end Notices

/-! ## Sending -/

inductive NotifyError where
  | repository (error : RepositoryError)
  | monitor (message : String)
deriving DecidableEq, Repr

abbrev NotifyM : Type → Type := Thread Time NotifyError Notices

/-- A monitor hears the command, and the row's token address was read where it has one. -/
def Heard (tokenAddress : Option Text) (command : WatchAddressCommand) (state : Notices) : Prop :=
  state.subscribed ≠ [] ∧ (tokenAddress.isSome = true → command.tokenContract.isSome = true)

/-- No row that the mark is about to set was armed since the log was as it is given. -/
def UnarmedSince (log : List Notice) (site : Site) (state : Notices) : Prop :=
  ∀ row ∈ state.db.watchedAddresses, watchSite row = site → row.monitorNotified = false →
    ∀ recent, state.log = recent ++ log → .armed (rowKey row) ∉ recent

/-- Publish the command; the log is returned for the premise of what follows. -/
def publishCommand (tokenAddress : Option Text) (command : WatchAddressCommand) : NotifyM (List Notice) :=
  Thread.assuming (Heard tokenAddress command) (Thread.statement fun _ state =>
    .ok ((state.publish command).log, state.publish command))

def markNotified (published : List Notice) (address : Text) (chainId : ChainId)
    (tokenAddress : Option Text) : NotifyM Unit :=
  Thread.assuming (UnarmedSince published (siteAt address chainId tokenAddress))
    (Thread.statement fun _ state => .ok ((), state.marked (siteAt address chainId tokenAddress)))

/-- Publish, then mark; an error of either is logged. -/
def publishAndMark (address : Text) (chainId : ChainId) (tokenAddress : Option Text)
    (command : WatchAddressCommand) : NotifyM Unit := do
  match ← (publishCommand tokenAddress command).attempt with
  | .error _ => pure ()
  | .ok published =>
    let _ ← (markNotified published address chainId tokenAddress).attempt
    pure ()

def eip155ForWatch : ChainId → Option Nat
  | .evm number => some number
  | .other _ => none

/-- An option in memory, with the values its texts were printed from or read as. -/
structure DerivedOption where
  option : PaymentOptionData
  address : Address
  expectedAmount : Option U256
  tokenContract : Option Address
  printed : lower option.paymentAddress = addressText address
  read : tokenContract = option.tokenAddress.bind parseAddress

/-- Tell the monitors about one address of a committed invoice, if there is a connection to them. -/
def notifyEvmWatch (evmMonitor : Bool) (invoiceId : Uuid) (derived : DerivedOption) : NotifyM Unit :=
  match eip155ForWatch derived.option.chainId with
  | none => pure ()
  | some eip155 =>
    if evmMonitor then
      publishAndMark derived.option.paymentAddress derived.option.chainId derived.option.tokenAddress
        ⟨eip155, derived.address, invoiceId, derived.expectedAmount, derived.tokenContract⟩
    else pure ()

/-- Commit an invoice, then tell the monitors about each of its addresses. -/
def createInvoice (evmMonitor : Bool) (invoice : InvoiceData) (derived : List DerivedOption) :
    NotifyM Unit := do
  Thread.statement fun _ state =>
    ((createInvoiceWithOptions invoice (derived.map DerivedOption.option) state.db).mapError
      NotifyError.repository).map fun db => ((), state.created db)
  forM derived (notifyEvmWatch evmMonitor invoice.id)

structure PendingWatchInfo where
  address : VarChar 42
  paymentOptionId : Uuid
  invoiceId : Uuid
  chainId : ChainId
  tokenAddress : Option (VarChar 42)

/-- Active watches that are not marked and not expired; rows are stored in the order of `created_at`. -/
def getPending (now : Time) (db : Db) : List PendingWatchInfo :=
  (db.watchedAddresses.filterMap fun row => do
    let option ← getPaymentOption row.paymentOptionId db
    if row.isActive = true ∧ row.monitorNotified = false ∧ now < row.expiresAt then
      some ⟨row.address, row.paymentOptionId, option.invoiceId, row.chainId, row.tokenAddress⟩
    else none).take 100

/-- Send the pending watches again; `expectedAmount` is the amount of an option where it is a `U256`. -/
def retryPendingWatches (expectedAmount : Uuid → Option U256) : NotifyM Unit := do
  let pending ← Thread.statement fun now state => .ok (getPending now state.db, state)
  forM pending fun watch =>
    match parseAddress watch.address.val with
    | none => pure ()
    | some address =>
      let tokenAddress := watch.tokenAddress.map Subtype.val
      match eip155ForWatch watch.chainId with
      | none => pure ()
      | some eip155 =>
        publishAndMark watch.address.val watch.chainId tokenAddress
          ⟨eip155, address, watch.invoiceId, expectedAmount watch.paymentOptionId,
            tokenAddress.bind parseAddress⟩

/-- The connection of a monitor ends, whatever is heard of it. -/
def disconnect (identity : Nat) : NotifyM Unit :=
  .call (fun _ => True)
    (fun _ state => { state with subscribed := state.subscribed.erase identity })
    fun _ _ => .done (.ok ())

/-- One life of a monitor process: it subscribes to the commands, and stops at any time. -/
def monitorProcess (identity : Nat) : NotifyM Unit := do
  let _ ← (Thread.statement fun _ state =>
    .ok ((), { state with subscribed := identity :: state.subscribed })).attempt
  disconnect identity

inductive NotifyRequest where
  | createInvoice (invoice : InvoiceData) (derived : List DerivedOption)
  | retryPendingWatches
  | resetChainWatchNotifications (chainId : Nat)
  | monitor

/-- Creations, retry passes, lineage breaks and monitors side by side. -/
def notifyDesk (evmMonitor : Bool) (expectedAmount : Uuid → Option U256) :
    Service NotifyRequest Time NotifyError Notices Unit where
  initial state := state = ⟨Db.empty, [], []⟩
  legal _ _ := True
  body request identity :=
    match request with
    | .createInvoice invoice derived => createInvoice evmMonitor invoice derived
    | .retryPendingWatches => retryPendingWatches expectedAmount
    | .resetChainWatchNotifications chainId =>
      Thread.statement fun _ state => .ok ((), state.rearmed chainId)
    | .monitor => monitorProcess identity

/-! ## What keeps a row told -/

variable {command : WatchAddressCommand}

section Log

variable {row : WatchedAddressRow} {log : List Notice}

theorem ReceivedSinceArmed.append (received : ReceivedSinceArmed log row) {recent : List Notice}
    (unarmed : .armed (rowKey row) ∉ recent) : ReceivedSinceArmed (recent ++ log) row := by
  obtain ⟨notice, mem, tells⟩ := received
  refine ⟨notice, ?_, tells⟩
  have others : ∀ other ∈ recent, decide (other ≠ .armed (rowKey row)) = true := by
    intro other memOther
    refine decide_eq_true ?_
    rintro rfl
    exact unarmed memOther
  rw [List.takeWhile_append_of_pos others]
  exact List.mem_append_right _ mem

theorem ReceivedSinceArmed.cons (received : ReceivedSinceArmed log row) (command : WatchAddressCommand) :
    ReceivedSinceArmed (.received command :: log) row := by
  have unarmed : Notice.armed (rowKey row) ∉ [.received command] := by simp
  exact received.append unarmed

theorem receivedSinceArmed_of_isFor (isFor : command.IsFor (watchSite row)) {recent : List Notice}
    (unarmed : .armed (rowKey row) ∉ recent) : ReceivedSinceArmed (recent ++ .received command :: log) row := by
  have told : ReceivedSinceArmed (.received command :: log) row := by
    refine ⟨.received command, ?_, isFor⟩
    rw [List.takeWhile_cons]
    exact List.mem_cons_self
  exact told.append unarmed

end Log

def Informed (state : Notices) : Prop :=
  ∀ row ∈ state.db.watchedAddresses, row.isActive = true → row.monitorNotified = true →
    ReceivedSinceArmed state.log row

theorem meets_of_rowKey {row other another : WatchedAddressRow} (same : rowKey other = rowKey another) :
    row.meets other = row.meets another := by
  obtain ⟨sameAddress, sameRest⟩ := Prod.mk.inj same
  obtain ⟨sameChain, sameToken⟩ := Prod.mk.inj sameRest
  unfold WatchedAddressRow.meets
  rw [sameAddress, sameChain, sameToken]

theorem meets_self (row : WatchedAddressRow) : row.meets row = true := by
  unfold WatchedAddressRow.meets
  cases isToken : row.tokenAddress <;> simp

theorem unmet_of_notified {row other : WatchedAddressRow} {rows : List WatchedAddressRow}
    (fresh : row.monitorNotified = false) (mem : other ∈ watchedRows row rows)
    (notified : other.monitorNotified = true) : other ∈ rows ∧ row.meets other = false := by
  unfold watchedRows at mem
  split at mem
  · obtain ⟨old, memOld, rfl⟩ := List.mem_map.mp mem
    split at notified
    · cases notified
    next unmet =>
      rw [if_neg unmet]
      exact ⟨memOld, Bool.eq_false_iff.mpr unmet⟩
  next unknown =>
    rcases List.mem_append.mp mem with old | new
    · refine ⟨old, Bool.eq_false_iff.mpr fun met => unknown ?_⟩
      exact List.any_eq_true.mpr ⟨other, old, met⟩
    · rw [List.mem_singleton.mp new, fresh] at notified
      cases notified

def MarkedAreOld (base db : Db) : Prop :=
  ∀ row ∈ db.watchedAddresses, row.monitorNotified = true →
    ∀ other ∈ db.watchedAddresses, rowKey other = rowKey row → other ∈ base.watchedAddresses

theorem MarkedAreOld.upsert {invoice : InvoiceData} {option : PaymentOptionData} {base db db' : Db}
    (old : MarkedAreOld base db) (pointed : upsertWatchedAddress invoice option db = .ok db') :
    MarkedAreOld base db' := by
  obtain ⟨watch, _, _, _, _, ⟨_, unmarked, _⟩, isWatches, _⟩ := upsertWatchedAddress_ok pointed
  rw [MarkedAreOld, isWatches]
  intro row mem notified other memOther sameKey
  obtain ⟨memOld, unmet⟩ := unmet_of_notified unmarked mem notified
  rcases mem_watchedRows memOther with rfl | memBefore | ⟨before, _, met, rfl⟩
  · rw [← meets_of_rowKey sameKey, meets_self] at unmet
    cases unmet
  · exact old row memOld notified other memBefore sameKey
  · rw [← meets_of_rowKey (show rowKey before = rowKey row from sameKey), met] at unmet
    cases unmet

theorem markedAreOld_of_ok {invoice : InvoiceData} {options : List PaymentOptionData} {db db' : Db}
    (done : createInvoiceWithOptions invoice options db = .ok db') : MarkedAreOld db db' := by
  refine createInvoiceWithOptions_statements done (fun _ _ _ other mem _ => mem) ?_ ?_
  · intro _ _ inserted old
    rw [MarkedAreOld, (insertInvoice_ok inserted).watchedAddresses]
    exact old
  intro option _ _ quoted _ stored pointed old
  obtain ⟨_, _, _, _, _, sameWatches⟩ := insertPaymentOption_ok stored
  refine MarkedAreOld.upsert ?_ pointed
  rw [MarkedAreOld, sameWatches]
  exact old

namespace Informed

variable {state : Notices}

variable (informed : Informed state)
include informed

theorem created {db : Db} (old : MarkedAreOld state.db db) : Informed (state.created db) := by
  intro row mem active notified
  refine (informed row (old row mem notified row mem rfl) active notified).append ?_
  intro isArmed
  obtain ⟨other, memOther, same⟩ := List.mem_map.mp isArmed
  obtain ⟨memDb, isNew⟩ := List.mem_filter.mp memOther
  exact of_decide_eq_true isNew (old row mem notified other memDb (Notice.armed.inj same))

theorem publish (command : WatchAddressCommand) : Informed (state.publish command) := by
  unfold Notices.publish
  split
  · exact informed
  · intro row mem active notified
    exact (informed row mem active notified).cons command

/-- A mark is right when the command was heard and its rows were not armed since. -/
theorem marked {site : Site} {log : List Notice} (isFor : command.IsFor site)
    (later : .received command :: log <:+ state.log)
    (unarmed : UnarmedSince (.received command :: log) site state) : Informed (state.marked site) := by
  obtain ⟨recent, isLog⟩ := later
  intro row mem active notified
  obtain ⟨before, memBefore, rfl⟩ := List.mem_map.mp mem
  change ReceivedSinceArmed state.log _
  by_cases here : watchSite before = site
  · rw [if_pos here] at active ⊢
    cases already : before.monitorNotified with
    | true => exact informed before memBefore active already
    | false =>
      have since := unarmed before memBefore here already recent isLog.symm
      have told : ReceivedSinceArmed (recent ++ .received command :: log) before :=
        receivedSinceArmed_of_isFor (here ▸ isFor) since
      rw [← isLog]
      exact told
  · rw [if_neg here] at active notified ⊢
    exact informed before memBefore active notified

theorem rearmed (chainId : Nat) : Informed (state.rearmed chainId) := by
  intro row mem active notified
  obtain ⟨before, memBefore, rfl⟩ := List.mem_map.mp mem
  by_cases here : Outbox.isActiveOn chainId before = true
  · rw [if_pos here] at notified
    cases notified
  rw [if_neg here] at active notified ⊢
  refine (informed before memBefore active notified).append ?_
  intro isArmed
  obtain ⟨other, memOther, same⟩ := List.mem_map.mp isArmed
  obtain ⟨_, isOn⟩ := List.mem_filter.mp memOther
  have sameChain : other.chainId = before.chainId := congrArg (fun key => key.2.1) (Notice.armed.inj same)
  unfold Outbox.isActiveOn at isOn here
  rw [sameChain, Bool.and_eq_true] at isOn
  exact here (by rw [active, isOn.1]; rfl)

end Informed

/-! ## The threads -/

/-- A step only adds to the log, and leaves marked rows told. -/
structure Keeps (state state' : Notices) : Prop where
  log : state.log <:+ state'.log
  informed : Informed state → Informed state'

theorem Keeps.refl : Keeps state state := ⟨List.suffix_rfl, id⟩

theorem Keeps.publish (command : WatchAddressCommand) : Keeps state (state.publish command) := by
  refine ⟨?_, fun informed => informed.publish command⟩
  unfold Notices.publish
  split
  · exact List.suffix_rfl
  · exact List.suffix_cons _ _

def notifyContract : Thread.Contract Time NotifyError Notices where
  legal _ _ := True
  invariant := Informed
  rely state state' := state.log <:+ state'.log
  guarantee := Keeps

theorem publishAndMark_meets {address : Text} {chainId : ChainId} {tokenAddress : Option Text}
    (isFor : (tokenAddress.isSome = true → command.tokenContract.isSome = true) →
      command.IsFor (siteAt address chainId tokenAddress)) (state : Notices) :
    (publishAndMark address chainId tokenAddress command).Respects notifyContract state := by
  unfold Thread.Respects publishAndMark
  rw [Thread.meets_bind, Thread.meets_attempt]
  refine Thread.Meets.statement ?_ ?_ fun t _ _ _ => ⟨.refl t, trivial⟩
  · rintro t _ _ _ - - premised - ⟨⟩
    obtain ⟨subscribed, readToken⟩ := premised trivial
    refine ⟨.publish t command, ?_⟩
    have isLog : (t.publish command).log = .received command :: t.log := by
      rw [Notices.publish, if_neg subscribed]
    rw [isLog]
    dsimp only
    rw [Thread.meets_bind, Thread.meets_attempt]
    -- the command is in the log, and its rows were not armed since
    have marks : ∀ {later : Notices}, (t.publish command).log <:+ later.log →
        UnarmedSince (.received command :: t.log) (siteAt address chainId tokenAddress) later →
        Keeps later (later.marked (siteAt address chainId tokenAddress)) := by
      intro later grown unarmed
      rw [isLog] at grown
      exact ⟨List.suffix_rfl, fun informed => informed.marked (isFor readToken) grown unarmed⟩
    refine Thread.Meets.statement ?_ ?_ fun later _ _ _ => ⟨.refl later, trivial⟩
    · rintro later _ _ _ grown - unarmed - ⟨⟩
      exact ⟨marks grown (unarmed trivial), trivial⟩
    · rintro later _ _ _ _ grown - unarmed - ⟨⟩
      exact ⟨marks grown (unarmed trivial), trivial⟩
  · rintro t _ _ _ _ - - - - ⟨⟩
    exact ⟨.publish t command, trivial⟩

theorem isFor_of_read {address : Text} {number : Nat} {tokenAddress : Option Text}
    (isAddress : parseAddress (lower address) = some command.address) (isChain : number = command.chainId)
    (isToken : command.tokenContract = tokenAddress.bind parseAddress)
    (readToken : tokenAddress.isSome = true → command.tokenContract.isSome = true) :
    command.IsFor (siteAt address (.evm number) tokenAddress) := by
  refine ⟨isAddress, by rw [isChain]; rfl, ?_⟩
  change (tokenAddress.map lower).map parseAddress = _
  cases tokenAddress with
  | none => rw [isToken]; rfl
  | some text =>
    obtain ⟨token, found⟩ := Option.isSome_iff_exists.mp (readToken rfl)
    have parsed : parseAddress text = some token := isToken.symm.trans found
    rw [found, Option.map_some, Option.map_some, parseAddress_lower parsed, Option.map_some]

theorem notifyEvmWatch_meets (invoiceId : Uuid) (derived : DerivedOption) (state : Notices) :
    (notifyEvmWatch evmMonitor invoiceId derived).Respects notifyContract state := by
  unfold notifyEvmWatch
  cases isChain : derived.option.chainId with
  | other text => trivial
  | evm number =>
    dsimp only [eip155ForWatch]
    split
    · refine publishAndMark_meets (isFor_of_read ?_ rfl derived.read) state
      rw [derived.printed]
      exact parseAddress_addressText derived.address
    · trivial

theorem createInvoice_meets (invoice : InvoiceData) (derived : List DerivedOption) (state : Notices) :
    (createInvoice evmMonitor invoice derived).Respects notifyContract state := by
  unfold Thread.Respects createInvoice
  rw [Thread.meets_bind]
  refine .ofWrite Keeps.refl ?_ (fun _ state => ?_) (fun _ _ => trivial) state
  · rintro _ t _ _ - - ends
    obtain ⟨db, done, isState⟩ := map_eq_ok.mp ends
    cases isState
    have old := markedAreOld_of_ok (mapError_eq_ok done)
    exact ⟨List.suffix_append _ _, fun informed => informed.created old⟩
  · exact .forM_mem (fun option _ state _ => notifyEvmWatch_meets evmMonitor invoice.id option state) trivial

theorem retryPendingWatches_meets (state : Notices) :
    (retryPendingWatches expectedAmount).Respects notifyContract state := by
  unfold Thread.Respects retryPendingWatches
  rw [Thread.meets_bind]
  refine .ofWrite Keeps.refl ?_ (fun pending state => ?_) (fun _ _ => trivial) state
  · rintro _ t _ _ - - ⟨⟩
    exact .refl t
  refine .forM_mem (fun watch _ state _ => ?_) trivial
  split
  · trivial
  next address isAddress =>
    cases isChain : watch.chainId with
    | other text => trivial
    | evm number =>
      exact publishAndMark_meets (isFor_of_read (parseAddress_lower isAddress) rfl rfl) state

theorem monitorProcess_meets (state : Notices) :
    (monitorProcess identity).Respects notifyContract state := by
  have ends : ∀ state, (disconnect identity).Respects notifyContract state := by
    intro state t _ _ _ _ _
    exact ⟨⟨List.suffix_rfl, id⟩, trivial⟩
  unfold Thread.Respects monitorProcess
  rw [Thread.meets_bind, Thread.meets_attempt]
  refine .ofWrite Keeps.refl ?_ (fun _ => ends) (fun _ => ends) state
  rintro _ t _ _ - - ⟨⟩
  exact ⟨List.suffix_rfl, id⟩

/-! ## Every run -/

abbrev NotifyPool : Type := Pool NotifyRequest Time NotifyError Notices Unit

section Runs

variable {evmMonitor : Bool} {expectedAmount : Uuid → Option U256}

/-- What the threads of the desk promise. -/
def notifySpec (evmMonitor : Bool) (expectedAmount : Uuid → Option U256) :
    Service.Spec (notifyDesk evmMonitor expectedAmount) where
  invariant := Informed
  rely _ state state' := state.log <:+ state'.log
  guarantee _ _ := Keeps
  fresh _ _ := True
  post _ _ _ _ := True
  failure _ _ _ _ := True

theorem notify_sound : (notifySpec evmMonitor expectedAmount).Sound where
  initially := by
    rintro _ rfl
    exact ⟨List.forall_mem_nil _, fun _ => trivial⟩
  refl _ _ := List.suffix_rfl
  trans := List.IsSuffix.trans
  keeps informed kept := kept.informed informed
  compatible _ _ kept := kept.log
  freshKept _ _ _ := trivial
  postStable _ _ := trivial
  failureStable _ _ := trivial
  meets := by
    intro request i state _ _
    cases request with
    | createInvoice invoice derived => exact createInvoice_meets evmMonitor invoice derived state
    | retryPendingWatches => exact retryPendingWatches_meets expectedAmount state
    | resetChainWatchNotifications chainId =>
      refine .ofWrite Keeps.refl ?_ (fun _ _ => trivial) (fun _ _ => trivial) state
      rintro _ t _ _ - - ⟨⟩
      exact ⟨List.suffix_append _ _, fun informed => informed.rearmed chainId⟩
    | monitor => exact monitorProcess_meets i state

/--
A lost watch command stays retriable: in every run in which each command is
published to a subscriber, with the row's token address read, and no row is
armed between a command and the mark that follows it, an active row that is
marked is one a monitor was told about since the row was last armed.
-/
theorem marked_watches_received {pool : NotifyPool}
    (reached : (notifyDesk evmMonitor expectedAmount).timely.Reachable pool) {row : WatchedAddressRow}
    (mem : row ∈ pool.shared.db.watchedAddresses) (active : row.isActive = true)
    (notified : row.monitorNotified = true) : ReceivedSinceArmed pool.shared.log row :=
  (notify_sound.holds reached).invariant row mem active notified

end Runs

/-! ## Marks without a monitor that knows -/

def sampleDerived : DerivedOption where
  option := sampleOption
  address := 5
  expectedAmount := none
  tokenContract := none
  printed := (isHexText_hexText 40 5).lower_eq
  read := rfl

def malformedDerived : DerivedOption where
  option := { sampleOption with tokenAddress := some "token".toList }
  address := 5
  expectedAmount := none
  tokenContract := none
  printed := (isHexText_hexText 40 5).lower_eq
  read := by decide +kernel

def notifyAfter (actions : List (PoolAction NotifyRequest Time NotifyError)) : NotifyPool :=
  (notifyDesk true fun _ => none).after ⟨Db.empty, [], []⟩ actions

def unheardPool : NotifyPool :=
  notifyAfter [.start (.createInvoice sampleInvoice [sampleDerived]), .run 0 (.ok 0), .run 0 (.ok 0),
    .run 0 (.ok 0)]

/-- A lineage break resets the row between its command and its mark. -/
def overtakenPool : NotifyPool :=
  notifyAfter [.start .monitor, .run 0 (.ok 0), .start (.createInvoice sampleInvoice [sampleDerived]),
    .run 1 (.ok 0), .run 1 (.ok 0), .start (.resetChainWatchNotifications 1), .run 2 (.ok 0), .run 1 (.ok 0)]

/-- A row with a token address that cannot be read is announced as one of the native coin. -/
def misreadPool : NotifyPool :=
  notifyAfter [.start .monitor, .run 0 (.ok 0), .start (.createInvoice sampleInvoice [malformedDerived]),
    .run 1 (.ok 0), .run 1 (.ok 0), .run 1 (.ok 0)]

def HasUntold (pool : NotifyPool) : Prop :=
  ∃ row ∈ pool.shared.db.watchedAddresses, row.isActive = true ∧ 0 < row.expiresAt ∧
    row.monitorNotified = true ∧ ¬ ReceivedSinceArmed pool.shared.log row

instance (pool : NotifyPool) : Decidable (HasUntold pool) := by
  unfold HasUntold
  infer_instance

theorem notifyAfter_reachable {actions : List (PoolAction NotifyRequest Time NotifyError)}
    (answered : ∀ action ∈ actions, action.answered = true) :
    (notifyDesk true fun _ => none).system.Reachable (notifyAfter actions) :=
  Service.reachable_of_answered rfl (fun _ => trivial) answered

theorem marked_watches_untold :
    ((notifyDesk true fun _ => none).system.Reachable unheardPool ∧ HasUntold unheardPool) ∧
      ((notifyDesk true fun _ => none).system.Reachable overtakenPool ∧ HasUntold overtakenPool) ∧
      (notifyDesk true fun _ => none).system.Reachable misreadPool ∧ HasUntold misreadPool :=
  ⟨⟨notifyAfter_reachable (by decide), by decide +kernel⟩,
    ⟨notifyAfter_reachable (by decide), by decide +kernel⟩,
    notifyAfter_reachable (by decide), by decide +kernel⟩

/-! ## An invoice that a monitor hears of -/

def readyPool : NotifyPool :=
  notifyAfter [.start .monitor, .run 0 (.ok 0), .start (.createInvoice sampleInvoice [sampleDerived])]

def subscribedMonitor : Running NotifyRequest Time NotifyError Notices Unit :=
  ⟨.monitor, disconnect 0⟩

def committedPool : NotifyPool where
  shared := Notices.created ⟨Db.empty, [0], []⟩ sampleDb
  running := [subscribedMonitor,
    ⟨.createInvoice sampleInvoice [sampleDerived], forM [sampleDerived] (notifyEvmWatch true 1)⟩]

theorem committedPool_reachable : (notifyDesk true fun _ => none).timely.Reachable committedPool := by
  have ready : (notifyDesk true fun _ => none).timely.Reachable readyPool := by
    refine Service.timely_of_path rfl ⟨⟨⟨trivial, rfl⟩, trivial⟩, ⟨⟨trivial, rfl⟩, ?_⟩,
      ⟨⟨trivial, rfl⟩, trivial⟩, trivial⟩
    rintro running ⟨⟩
    trivial
  have commits : (⟨.createInvoice sampleInvoice [sampleDerived],
      createInvoice true sampleInvoice [sampleDerived]⟩ :
        Running NotifyRequest Time NotifyError Notices Unit).resume (.ok 0) ⟨Db.empty, [0], []⟩ =
      (committedPool.shared,
        ⟨.createInvoice sampleInvoice [sampleDerived], forM [sampleDerived] (notifyEvmWatch true 1)⟩) := by
    refine Running.resume_statement (b := ()) ?_ _ fun _ => forM [sampleDerived] (notifyEvmWatch true 1)
    rw [show [sampleDerived].map DerivedOption.option = [sampleOption] from rfl, sampleDb_created]
    rfl
  have step : (notifyDesk true fun _ => none).timely.step readyPool (.run 1 (.ok 0)) committedPool := by
    refine ⟨⟨trivial, ?_⟩, ?_⟩
    · exact congrArg (fun after => (⟨after.1, [subscribedMonitor, after.2]⟩ : NotifyPool)) commits.symm
    · rintro running ⟨⟩
      trivial
  exact ready.snoc step

/-- The command is published and the row marked. -/
def toldPool : NotifyPool :=
  [.run 1 (.ok 0), .run 1 (.ok 0)].foldl (Pool.perform (notifyDesk true fun _ => none).body) committedPool

theorem marked_watches_received_told : ∃ row ∈ toldPool.shared.db.watchedAddresses,
    row.isActive = true ∧ row.monitorNotified = true ∧ ReceivedSinceArmed toldPool.shared.log row := by
  have reached : (notifyDesk true fun _ => none).timely.Reachable toldPool := by
    refine committedPool_reachable.run (System.Path.run ⟨⟨⟨trivial, rfl⟩, ?_⟩, ⟨⟨trivial, rfl⟩, ?_⟩, trivial⟩)
    · rintro running ⟨⟩
      exact ⟨List.cons_ne_nil _ _, nofun⟩
    · rintro running ⟨⟩ row - - - recent isLog
      have none : recent = [] := List.self_eq_append_left.mp isLog
      rw [none]
      exact List.not_mem_nil
  have facts : ∃ row ∈ toldPool.shared.db.watchedAddresses, row.isActive = true ∧
      row.monitorNotified = true := by decide +kernel
  obtain ⟨row, mem, active, notified⟩ := facts
  exact ⟨row, mem, active, notified, marked_watches_received reached mem active notified⟩

end EthPayServer.Watch
