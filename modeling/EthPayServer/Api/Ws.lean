import EthPayServer.Api.Extractors

/-!
# Live updates of one dashboard socket

Updates reach a socket through the channel of a topic, a listener task for each
topic, and a queue.  Whether an update may be written is decided when it leaves
the queue: the session, the account and the memberships are read again, each by
a statement of its own, and whatever prevents that closes the socket.
-/

namespace EthPayServer.Api.Ws

open Lib Data
open Evm (Time Uuid)

inductive StatusUpdate where
  | invoiceStatus (invoiceId status : Text)
  | paymentUpdate (paymentId invoiceId status : Text) (amount : Option Text)
  | connected
  | ping
deriving DecidableEq

inductive Topic where
  | admin
  | store (id : Uuid)
deriving DecidableEq

/-- An update together with the store it was published for. -/
abbrev Published : Type := Uuid × StatusUpdate

inductive TaskStatus where
  | running
  /-- dropped by the socket; what it is doing it may still finish -/
  | aborted
  | ended
deriving DecidableEq

/-- The task that reads one topic; what it has received waits for room in the queue. -/
structure Listener where
  topic : Topic
  position : Nat
  held : Option Published
  status : TaskStatus
deriving DecidableEq

/-! ## Checks and frames -/

/-- What a check that passed has read, and when. -/
structure Verified where
  session : Moment
  account : Moment
  row : UserRow
  /-- when the memberships were read; they are not read for an administrator -/
  stores : Option Moment
  topics : List Topic

inductive Frame where
  | connected
  | update (item : Published)
  | ping
  | close
deriving DecidableEq

inductive Event where
  /-- a check came to its end: `none` if it failed or could not be made -/
  | check (outcome : Option Verified)
  | wrote (frame : Frame)

/-- What a check is made for. -/
inductive Purpose where
  | connect
  | deliver (topic : Topic) (item : Published)
  | upkeep
deriving DecidableEq

/-- The reads a check has made so far. -/
inductive Progress where
  | session
  | user (session : Moment) (user : AccountInfo)
  | stores (session account : Moment) (row : UserRow)

inductive Phase where
  | waiting
  | checking (purpose : Purpose) (progress : Progress)
  | syncing (verified : Verified) (purpose : Purpose) (topics : List Topic)
  | sending (frame : Frame)
  | idle
  | closing
  | closed

/-- One socket, the channels and the tables. -/
structure Socket where
  moment : Moment
  sent : Topic → List Published
  session : Option Uuid
  listeners : List Listener
  queue : List (Topic × Published)
  lagged : Bool
  phase : Phase
  log : List Event

namespace Socket

/-! ## Publishing and listening -/

def publish (topic : Topic) (item : Published) (socket : Socket) : Socket :=
  { socket with sent := Function.update socket.sent topic (socket.sent topic ++ [item]) }

/-- `WsBroadcast::send`: to the store's channel and to the administrators'. -/
def send (storeId : Uuid) (update : StatusUpdate) (socket : Socket) : Socket :=
  (socket.publish (.store storeId) (storeId, update)).publish .admin (storeId, update)

def queueCapacity : Nat := 256

/-- A listener receives the next update; one that is too far behind reports it and ends. -/
def recv (capacity index : Nat) (socket : Socket) : Option Socket := do
  let listener ← socket.listeners[index]?
  if listener.status = .ended ∨ listener.held.isSome then none
  else if listener.position + capacity < (socket.sent listener.topic).length then
    some { socket with
      listeners := socket.listeners.set index { listener with status := .ended }
      lagged := true }
  else do
    let item ← (socket.sent listener.topic)[listener.position]?
    some { socket with
      listeners := socket.listeners.set index
        { listener with position := listener.position + 1, held := some item } }

/-- A listener puts what it holds into the queue. -/
def forward (index : Nat) (socket : Socket) : Option Socket := do
  let listener ← socket.listeners[index]?
  let item ← listener.held
  if listener.status = .ended ∨ queueCapacity ≤ socket.queue.length then none
  else
    some { socket with
      listeners := socket.listeners.set index { listener with held := none }
      queue := socket.queue ++ [(listener.topic, item)] }

/-- An aborted listener is gone, or the channel closed under one. -/
def stop (index : Nat) (socket : Socket) : Option Socket := do
  let listener ← socket.listeners[index]?
  some { socket with
    listeners := socket.listeners.set index { listener with status := .ended }
    lagged := socket.lagged || listener.status = .running }

/-! ## The forwarding task -/

def authenticate (token : Text) (socket : Socket) : Option Socket :=
  match socket.phase with
  | .waiting =>
    match parseUuid token with
    | none => some { socket with phase := .closing }
    | some id => some { socket with session := some id, phase := .checking .connect .session }
  | _ => none

def refuse (socket : Socket) : Socket :=
  { socket with log := socket.log ++ [.check none], phase := .closing }

/-- The check passes: listeners of topics no longer allowed are dropped, the others follow. -/
def pass (purpose : Purpose) (verified : Verified) (socket : Socket) : Socket :=
  { socket with
    log := socket.log ++ [.check (some verified)]
    listeners := socket.listeners.map fun listener =>
      if listener.topic ∈ verified.topics ∨ listener.status = .ended then listener
      else { listener with status := .aborted }
    phase := .syncing verified purpose verified.topics }

/-- The next read of a check, which may fail. -/
def read (app : AppState) (answered : Bool) (socket : Socket) : Option Socket :=
  match socket.phase, socket.session with
  | .checking purpose progress, some sessionId =>
    if !answered then some socket.refuse
    else
      match progress with
      | .session =>
        match validSession app sessionId socket.moment.now socket.moment.registry with
        | none => some socket.refuse
        | some (user, _) => some { socket with phase := .checking purpose (.user socket.moment user) }
      | .user session user =>
        match socket.moment.registry.getUser user.id with
        | none => some socket.refuse
        | some row =>
          if row.role = .serverAdmin then
            some (socket.pass purpose ⟨session, socket.moment, row, none, [.admin]⟩)
          else some { socket with phase := .checking purpose (.stores session socket.moment row) }
      | .stores session account row =>
        some (socket.pass purpose ⟨session, account, row, some socket.moment,
          (socket.moment.registry.getUserStores row.id).map fun store => .store store.storeId⟩)
  | _, _ => none

/-- The rest of `sync_listeners`, one subscription at a time, and what comes after it. -/
def sync (socket : Socket) : Option Socket :=
  match socket.phase with
  | .syncing verified purpose (topic :: rest) =>
    if socket.listeners.any fun listener => listener.topic = topic ∧ listener.status ≠ .aborted then
      some { socket with phase := .syncing verified purpose rest }
    else
      some { socket with
        listeners := socket.listeners ++ [⟨topic, (socket.sent topic).length, none, .running⟩]
        phase := .syncing verified purpose rest }
  | .syncing verified purpose [] =>
    match purpose with
    | .connect => some { socket with phase := .sending .connected }
    | .upkeep => some { socket with phase := .idle }
    | .deliver topic item =>
      some { socket with phase := if topic ∈ verified.topics then .sending (.update item) else .idle }
  | _ => none

/-- `send_within`; a frame that is not taken in time may still have been written. -/
def write (taken : Bool) (socket : Socket) : Option Socket :=
  match socket.phase with
  | .sending frame =>
    some { socket with
      log := socket.log ++ [.wrote frame]
      phase := if taken then .idle else if frame = .connected then .closed else .closing }
  | _ => none

/-- The branches of `select!`. -/
inductive Branch where
  | updates
  | lagged
  | keepalive
  | ticker
  | incoming (closes : Bool)
deriving DecidableEq

def select (branch : Branch) (socket : Socket) : Option Socket :=
  match socket.phase with
  | .idle =>
    match branch with
    | .updates =>
      match socket.queue with
      | [] => none
      | (topic, item) :: rest =>
        some { socket with queue := rest, phase := .checking (.deliver topic item) .session }
    | .lagged => if socket.lagged then some { socket with phase := .closing } else none
    | .keepalive => some { socket with phase := .sending .ping }
    | .ticker => some { socket with phase := .checking .upkeep .session }
    | .incoming closes => some { socket with phase := if closes then .closing else .idle }
  | _ => none

/-- The close handshake; the listeners die with the socket. -/
def close (socket : Socket) : Option Socket :=
  match socket.phase with
  | .closing =>
    some { socket with
      log := socket.log ++ [.wrote .close]
      listeners := socket.listeners.map fun listener => { listener with status := .ended }
      phase := .closed }
  | _ => none

end Socket

/-! ## All interleavings -/

inductive Action where
  /-- sessions end, roles and memberships change -/
  | change (registry : Registry)
  | elapse (seconds : Nat)
  | send (storeId : Uuid) (update : StatusUpdate)
  | recv (index : Nat)
  | forward (index : Nat)
  | stop (index : Nat)
  | authenticate (token : Text)
  | read (answered : Bool)
  | sync
  | write (taken : Bool)
  | select (branch : Socket.Branch)
  | close

variable (app : AppState) (capacity : Nat)

def Socket.perform (socket : Socket) : Action → Option Socket
  | .change registry => some { socket with moment := { socket.moment with registry := registry } }
  | .elapse seconds => some { socket with moment := { socket.moment with now := socket.moment.now + seconds } }
  | .send storeId update => some (socket.send storeId update)
  | .recv index => socket.recv capacity index
  | .forward index => socket.forward index
  | .stop index => socket.stop index
  | .authenticate token => socket.authenticate token
  | .read answered => socket.read app answered
  | .sync => socket.sync
  | .write taken => socket.write taken
  | .select branch => socket.select branch
  | .close => socket.close

def wsSystem : System Socket Action where
  initial socket := socket.session = none ∧ socket.sent = (fun _ => []) ∧ socket.listeners = [] ∧
    socket.queue = [] ∧ socket.phase = .waiting ∧ socket.log = []
  step socket action socket' := socket.perform app capacity action = some socket'

/-! ## What the log shows -/

/-- An update of the store may go out on the topic's channel. -/
def Routed (topic : Topic) (item : Published) : Prop := topic = .admin ∨ topic = .store item.1

def Verified.Admits (verified : Verified) (sessionId : Option Uuid) (storeId : Uuid) : Prop :=
  ∃ id user session, sessionId = some id ∧
    validSession app id verified.session.now verified.session.registry = some (user, session) ∧
    verified.account.registry.getUser user.id = some verified.row ∧
    (verified.row.role = .serverAdmin ∨
      ∃ moment, verified.stores = some moment ∧ moment.registry.IsMember user.id storeId)

def Justified (sessionId : Option Uuid) (log : List Event) : Prop :=
  ∀ before after item, log = before ++ .wrote (.update item) :: after →
    ∃ earlier verified, before = earlier ++ [.check (some verified)] ∧ verified.Admits app sessionId item.1

/-- After a check that did not pass nothing is written but the close of the connection. -/
def Silent (log : List Event) : Prop :=
  ∀ before after, log = before ++ .check none :: after → ∀ event ∈ after, event = .wrote .close

section Log

variable {app} {sessionId : Option Uuid} {log : List Event} {event : Event}

/-- How a list with one more element falls apart around an element. -/
theorem split_snoc {before after : List Event} {middle : Event}
    (split : log ++ [event] = before ++ middle :: after) :
    (before = log ∧ middle = event ∧ after = []) ∨
      ∃ rest, after = rest ++ [event] ∧ log = before ++ middle :: rest := by
  rcases List.eq_nil_or_concat after with rfl | ⟨rest, last, rfl⟩
  · obtain ⟨sameLog, sameEvent⟩ := List.append_inj' split rfl
    cases sameEvent
    exact .inl ⟨sameLog.symm, rfl, rfl⟩
  · rw [List.concat_eq_append, ← List.cons_append, ← List.append_assoc] at split
    obtain ⟨sameLog, sameEvent⟩ := List.append_inj' split rfl
    cases sameEvent
    exact .inr ⟨rest, List.concat_eq_append, sameLog⟩

theorem Justified.snoc (justified : Justified app sessionId log)
    (allowed : ∀ item, event = .wrote (.update item) →
      ∃ earlier verified, log = earlier ++ [.check (some verified)] ∧ verified.Admits app sessionId item.1) :
    Justified app sessionId (log ++ [event]) := by
  intro before after item split
  rcases split_snoc split with ⟨rfl, isEvent, -⟩ | ⟨rest, -, isLog⟩
  · exact allowed item isEvent.symm
  · exact justified before rest item isLog

theorem Silent.snoc (silent : Silent log) (allowed : .check none ∈ log → event = .wrote .close) :
    Silent (log ++ [event]) := by
  intro before after split other mem
  rcases split_snoc split with ⟨-, -, rfl⟩ | ⟨rest, rfl, isLog⟩
  · cases mem
  · rcases List.mem_append.mp mem with old | new
    · exact silent before rest isLog other old
    · rw [List.mem_singleton.mp new]
      exact allowed (by rw [isLog]; simp)

end Log

/-! ### What a check establishes -/

def Purpose.IsRouted : Purpose → Prop
  | .deliver topic item => Routed topic item
  | _ => True

def Progress.Sound (sessionId : Option Uuid) : Progress → Prop
  | .session => True
  | .user moment info => ∃ id session, sessionId = some id ∧
      validSession app id moment.now moment.registry = some (info, session)
  | .stores moment account row => ∃ id user session, sessionId = some id ∧
      validSession app id moment.now moment.registry = some (user, session) ∧
      account.registry.getUser user.id = some row

def Verified.Sound (verified : Verified) (sessionId : Option Uuid) : Prop :=
  ∃ id user session, sessionId = some id ∧
    validSession app id verified.session.now verified.session.registry = some (user, session) ∧
    verified.account.registry.getUser user.id = some verified.row ∧
    ∀ topic ∈ verified.topics,
      match topic with
      | .admin => verified.row.role = .serverAdmin
      | .store storeId => ∃ moment, verified.stores = some moment ∧ moment.registry.IsMember user.id storeId

variable {app} in
theorem Verified.Sound.admits {verified : Verified} {sessionId : Option Uuid} {topic : Topic} {item : Published}
    (sound : verified.Sound app sessionId) (allowed : topic ∈ verified.topics) (routed : Routed topic item) :
    verified.Admits app sessionId item.1 := by
  obtain ⟨id, user, session, isId, valid, isRow, topics⟩ := sound
  have granted := topics topic allowed
  refine ⟨id, user, session, isId, valid, isRow, ?_⟩
  rcases routed with rfl | rfl
  · exact .inl granted
  · exact .inr granted

def PhaseHolds (sessionId : Option Uuid) (log : List Event) : Phase → Prop
  | .waiting => log = []
  | .checking purpose progress =>
    .check none ∉ log ∧ purpose.IsRouted ∧ progress.Sound app sessionId
  | .syncing verified purpose _ => .check none ∉ log ∧ purpose.IsRouted ∧ verified.Sound app sessionId ∧
      ∃ earlier, log = earlier ++ [.check (some verified)]
  | .sending frame => .check none ∉ log ∧ ∀ item, frame = .update item →
      ∃ earlier verified, log = earlier ++ [.check (some verified)] ∧ verified.Admits app sessionId item.1
  | .idle => .check none ∉ log
  | .closing => True
  | .closed => True

/-- The invariant: updates stay on their topics, and the log is in order. -/
structure Holds (socket : Socket) : Prop where
  sent : ∀ topic, ∀ item ∈ socket.sent topic, Routed topic item
  held : ∀ listener ∈ socket.listeners, ∀ item, listener.held = some item → Routed listener.topic item
  queued : ∀ entry ∈ socket.queue, Routed entry.1 entry.2
  phase : PhaseHolds app socket.session socket.log socket.phase
  justified : Justified app socket.session socket.log
  silent : Silent socket.log

section Steps

variable {app capacity} {socket socket' : Socket}

theorem publish_sent {topic : Topic} {item : Published}
    (sent : ∀ topic, ∀ item ∈ socket.sent topic, Routed topic item) (routed : Routed topic item) :
    ∀ other, ∀ published ∈ (socket.publish topic item).sent other, Routed other published := by
  intro other published mem
  by_cases same : other = topic
  · subst same
    simp only [Socket.publish, Function.update_self] at mem
    rcases List.mem_append.mp mem with old | new
    · exact sent other published old
    · rw [List.mem_singleton.mp new]
      exact routed
  · simp only [Socket.publish, Function.update_of_ne same] at mem
    exact sent other published mem

theorem Holds.send (holds : Holds app socket) (storeId : Uuid) (update : StatusUpdate) :
    Holds app (socket.send storeId update) where
  sent := publish_sent (publish_sent holds.sent (.inr rfl)) (.inl rfl)
  __ := holds

/-- A listener that changes keeps holding an update of its topic. -/
theorem held_set {listener : Listener}
    (held : ∀ listener ∈ socket.listeners, ∀ item, listener.held = some item → Routed listener.topic item)
    (routed : ∀ item, listener.held = some item → Routed listener.topic item) :
    ∀ other ∈ socket.listeners.set index listener, ∀ item, other.held = some item → Routed other.topic item := by
  intro other mem
  rcases List.mem_or_eq_of_mem_set mem with old | rfl
  · exact held other old
  · exact routed

section

variable (holds : Holds app socket)
include holds

theorem Holds.recv (step : socket.recv capacity index = some socket') : Holds app socket' := by
  obtain ⟨listener, here, rest⟩ := Option.bind_eq_some_iff.mp step
  have known := holds.held listener (List.mem_of_getElem? here)
  split at rest
  · cases rest
  split at rest
  · cases rest
    exact { holds with held := held_set holds.held known }
  obtain ⟨item, isItem, last⟩ := Option.bind_eq_some_iff.mp rest
  cases last
  refine { holds with held := held_set holds.held ?_ }
  rintro other ⟨⟩
  exact holds.sent listener.topic item (List.mem_of_getElem? isItem)

theorem Holds.forward (step : socket.forward index = some socket') : Holds app socket' := by
  obtain ⟨listener, here, rest⟩ := Option.bind_eq_some_iff.mp step
  obtain ⟨item, isItem, last⟩ := Option.bind_eq_some_iff.mp rest
  have routed := holds.held listener (List.mem_of_getElem? here) item isItem
  split at last
  · cases last
  cases last
  refine { holds with held := held_set holds.held ?_, queued := ?_ }
  · rintro other ⟨⟩
  intro entry mem
  rcases List.mem_append.mp mem with old | new
  · exact holds.queued entry old
  · rw [List.mem_singleton.mp new]
    exact routed

theorem Holds.stop (step : socket.stop index = some socket') : Holds app socket' := by
  obtain ⟨listener, here, rest⟩ := Option.bind_eq_some_iff.mp step
  cases rest
  exact { holds with held := held_set holds.held (holds.held listener (List.mem_of_getElem? here)) }

theorem Holds.authenticate {token : Text} (step : socket.authenticate token = some socket') :
    Holds app socket' := by
  have phase := holds.phase
  unfold Socket.authenticate at step
  split at step
  next isPhase =>
    rw [isPhase] at phase
    split at step
    · cases step
      exact { holds with phase := trivial }
    cases step
    have none : socket.log = [] := phase
    refine { holds with phase := ⟨?_, trivial, trivial⟩, justified := ?_ }
    · rw [none]
      exact List.not_mem_nil
    · intro before after item split
      rw [none] at split
      cases before <;> cases split
  · cases step

theorem Holds.refuse (calm : .check none ∉ socket.log) : Holds app socket.refuse where
  __ := holds
  phase := trivial
  justified := holds.justified.snoc fun _ isWrite => nomatch isWrite
  silent := holds.silent.snoc fun failed => absurd failed calm

theorem Holds.pass {purpose : Purpose} {verified : Verified} (calm : .check none ∉ socket.log)
    (routed : purpose.IsRouted) (sound : verified.Sound app socket.session) :
    Holds app (socket.pass purpose verified) where
  sent := holds.sent
  held := by
    intro listener mem
    obtain ⟨old, known, rfl⟩ := List.mem_map.mp mem
    split <;> exact holds.held old known
  queued := holds.queued
  phase := by
    refine ⟨?_, routed, sound, socket.log, rfl⟩
    intro failed
    rcases List.mem_append.mp failed with old | new
    · exact calm old
    · cases List.mem_singleton.mp new
  justified := holds.justified.snoc fun _ isWrite => nomatch isWrite
  silent := holds.silent.snoc fun failed => absurd failed calm

/-- Each read carries the check on, and the last one makes it sound. -/
theorem Holds.read {answered : Bool} (step : socket.read app answered = some socket') : Holds app socket' := by
  have phase := holds.phase
  unfold Socket.read at step
  split at step
  next purpose progress sessionId isPhase isSession =>
    rw [isPhase] at phase
    obtain ⟨calm, routed, sound⟩ := phase
    split at step
    · cases step
      exact holds.refuse calm
    cases progress with
    | session =>
      dsimp only at step
      split at step
      · cases step
        exact holds.refuse calm
      next user session valid =>
        cases step
        exact { holds with phase := ⟨calm, routed, sessionId, session, isSession, valid⟩ }
    | user moment user =>
      obtain ⟨id, session, isId, valid⟩ := sound
      dsimp only at step
      split at step
      · cases step
        exact holds.refuse calm
      next row isRow =>
        split at step
        next admin =>
          cases step
          refine holds.pass calm routed ⟨id, user, session, isId, valid, isRow, ?_⟩
          intro topic mem
          rw [List.mem_singleton.mp mem]
          exact admin
        · cases step
          exact { holds with phase := ⟨calm, routed, id, user, session, isId, valid, isRow⟩ }
    | stores moment account row =>
      obtain ⟨id, user, session, isId, valid, isRow⟩ := sound
      cases step
      refine holds.pass calm routed ⟨id, user, session, isId, valid, isRow, ?_⟩
      intro topic mem
      obtain ⟨store, isStore, rfl⟩ := List.mem_map.mp mem
      rw [id_of_getUser isRow] at isStore
      exact ⟨socket.moment, rfl, Registry.isMember_of_getUserStores isStore⟩
  · cases step

theorem Holds.sync (step : socket.sync = some socket') : Holds app socket' := by
  have phase := holds.phase
  unfold Socket.sync at step
  split at step
  next verified purpose topic rest isPhase =>
    rw [isPhase] at phase
    split at step
    · cases step
      exact { holds with phase := phase }
    cases step
    refine { holds with phase := phase, held := ?_ }
    intro listener mem
    rcases List.mem_append.mp mem with old | new
    · exact holds.held listener old
    · rw [List.mem_singleton.mp new]
      exact fun _ isHeld => nomatch isHeld
  next verified purpose isPhase =>
    rw [isPhase] at phase
    obtain ⟨calm, routed, sound, earlier, isLog⟩ := phase
    cases purpose with
    | connect =>
      cases step
      exact { holds with phase := ⟨calm, fun _ isUpdate => nomatch isUpdate⟩ }
    | upkeep =>
      cases step
      exact { holds with phase := calm }
    | deliver topic item =>
      cases step
      refine { holds with phase := ?_ }
      dsimp only
      split
      next allowed =>
        refine ⟨calm, ?_⟩
        rintro other ⟨⟩
        exact ⟨earlier, verified, isLog, sound.admits allowed routed⟩
      · exact calm
  · cases step

theorem Holds.write {taken : Bool} (step : socket.write taken = some socket') : Holds app socket' := by
  have phase := holds.phase
  unfold Socket.write at step
  split at step
  next frame isPhase =>
    rw [isPhase] at phase
    obtain ⟨calm, allowed⟩ := phase
    cases step
    refine { holds with phase := ?_, justified := ?_, silent := ?_ }
    · dsimp only
      split
      · intro failed
        rcases List.mem_append.mp failed with old | new
        · exact calm old
        · cases List.mem_singleton.mp new
      · split <;> trivial
    · refine holds.justified.snoc ?_
      rintro item ⟨⟩
      exact allowed item rfl
    · exact holds.silent.snoc fun failed => absurd failed calm
  · cases step

theorem Holds.select {branch : Socket.Branch} (step : socket.select branch = some socket') :
    Holds app socket' := by
  have phase := holds.phase
  unfold Socket.select at step
  split at step
  next isPhase =>
    rw [isPhase] at phase
    cases branch with
    | updates =>
      dsimp only at step
      split at step
      · cases step
      next topic item rest isQueue =>
        cases step
        have queued := holds.queued
        rw [isQueue] at queued
        exact { holds with
          phase := ⟨phase, queued (topic, item) List.mem_cons_self, trivial⟩
          queued := fun entry mem => queued entry (List.mem_cons_of_mem _ mem) }
    | lagged =>
      dsimp only at step
      split at step
      · cases step
        exact { holds with phase := trivial }
      · cases step
    | keepalive =>
      cases step
      exact { holds with phase := ⟨phase, fun _ isUpdate => nomatch isUpdate⟩ }
    | ticker =>
      cases step
      exact { holds with phase := ⟨phase, trivial, trivial⟩ }
    | incoming closes =>
      cases step
      refine { holds with phase := ?_ }
      cases closes with
      | true => trivial
      | false => exact phase
  · cases step

theorem Holds.close (step : socket.close = some socket') : Holds app socket' := by
  unfold Socket.close at step
  split at step
  · cases step
    refine { holds with phase := trivial, held := ?_, justified := ?_, silent := ?_ }
    · intro listener mem
      obtain ⟨old, known, rfl⟩ := List.mem_map.mp mem
      exact holds.held old known
    · exact holds.justified.snoc fun _ isWrite => nomatch isWrite
    · exact holds.silent.snoc fun _ => rfl
  · cases step

end

theorem Holds.step (holds : Holds app socket) {action : Action}
    (step : (wsSystem app capacity).step socket action socket') : Holds app socket' := by
  cases action with
  | change registry =>
    cases step
    exact { holds with }
  | elapse seconds =>
    cases step
    exact { holds with }
  | send storeId update =>
    cases step
    exact holds.send storeId update
  | recv index => exact holds.recv step
  | forward index => exact holds.forward step
  | stop index => exact holds.stop step
  | authenticate token => exact holds.authenticate step
  | read answered => exact holds.read step
  | sync => exact holds.sync step
  | write taken => exact holds.write step
  | select branch => exact holds.select step
  | close => exact holds.close step

theorem holds_of_reachable (reached : (wsSystem app capacity).Reachable socket) : Holds app socket := by
  refine reached.invariant ?_ fun _ holds step => holds.step step
  rintro socket ⟨-, unsent, unheard, unqueued, isWaiting, isNew⟩
  constructor
  · intro topic item mem
    rw [unsent] at mem
    cases mem
  · intro listener mem
    rw [unheard] at mem
    cases mem
  · intro entry mem
    rw [unqueued] at mem
    cases mem
  · rw [isWaiting]
    exact isNew
  · intro before after item split
    rw [isNew] at split
    cases before <;> cases split
  · intro before after split
    rw [isNew] at split
    cases before <;> cases split

end Steps

/--
On every schedule, an update that is written stands right behind a check in
which the session was valid and its user was an administrator or a member of
the update's store, and behind a check that failed or could not be made nothing
is written but the close of the connection.
-/
theorem updates_checked {socket : Socket} (reached : (wsSystem app capacity).Reachable socket) :
    Justified app socket.session socket.log ∧ Silent socket.log :=
  ⟨(holds_of_reachable reached).justified, (holds_of_reachable reached).silent⟩

/-! ## Two runs -/

def Socket.run (actions : List Action) (socket : Socket) : Option Socket :=
  actions.foldlM (Socket.perform app capacity) socket

variable {app capacity} in
theorem reachable_of_run {actions : List Action} {socket last : Socket}
    (reached : (wsSystem app capacity).Reachable socket) (ran : socket.run app capacity actions = some last) :
    (wsSystem app capacity).Reachable last := by
  induction actions generalizing socket with
  | nil =>
    cases ran
    exact reached
  | cons action rest ih =>
    obtain ⟨between, first, others⟩ := Option.bind_eq_some_iff.mp ran
    exact ih (reached.snoc first) others

def clerkSocket : Socket :=
  ⟨⟨clerkRegistry, 0⟩, fun _ => [], none, [], [], false, .waiting, []⟩

theorem clerkSocket_reachable : (wsSystem clerkApp 16).Reachable clerkSocket :=
  .of_initial ⟨rfl, rfl, rfl, rfl, rfl, rfl⟩

/-- What was written, with `none` for the checks in between. -/
def Event.frame? : Event → Option Frame
  | .check _ => none
  | .wrote frame => some frame

/-- The close of the connection is written after a check that could not be made. -/
theorem close_after_failed_check :
    ∃ socket, (wsSystem clerkApp 16).Reachable socket ∧ socket.log = [.check none, .wrote .close] := by
  have ran : (clerkSocket.run clerkApp 16 [.authenticate clerkToken, .read false, .close]).map Socket.log =
      some [.check none, .wrote .close] := rfl
  obtain ⟨socket, isSocket, isLog⟩ := Option.map_eq_some_iff.mp ran
  exact ⟨socket, reachable_of_run clerkSocket_reachable isSocket, isLog⟩

def delivery : List Action :=
  [.authenticate clerkToken, .read true, .read true, .read true, .sync, .sync, .write true,
    .send 7 (.invoiceStatus ['i'] ['p']), .recv 0, .forward 0, .select .updates, .read true, .read true,
    .read true, .sync, .sync, .write true]

theorem updates_checked_clerk :
    ∃ socket verified, (wsSystem clerkApp 16).Reachable socket ∧
      .wrote (.update (7, .invoiceStatus ['i'] ['p'])) ∈ socket.log ∧
      .check (some verified) ∈ socket.log ∧ verified.Admits clerkApp socket.session 7 := by
  have ran : (clerkSocket.run clerkApp 16 delivery).map (fun socket => socket.log.map Event.frame?) =
      some [none, some .connected, none, some (.update (7, .invoiceStatus ['i'] ['p']))] := by decide +kernel
  obtain ⟨socket, isSocket, frames⟩ := Option.map_eq_some_iff.mp ran
  have reached := reachable_of_run clerkSocket_reachable isSocket
  have written : .wrote (.update (7, .invoiceStatus ['i'] ['p'])) ∈ socket.log := by
    have mem : some (.update (7, .invoiceStatus ['i'] ['p'])) ∈ socket.log.map Event.frame? := by
      rw [frames]
      simp
    obtain ⟨event, isEvent, isFrame⟩ := List.mem_map.mp mem
    cases event with
    | check outcome => cases isFrame
    | wrote frame =>
      cases isFrame
      exact isEvent
  obtain ⟨before, after, isLog⟩ := List.append_of_mem written
  obtain ⟨earlier, verified, isBefore, admits⟩ :=
    (updates_checked clerkApp 16 reached).1 before after _ isLog
  refine ⟨socket, verified, reached, written, ?_, admits⟩
  rw [isLog, isBefore]
  simp

end EthPayServer.Api.Ws
