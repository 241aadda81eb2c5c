import EthPayServer.Lib.Broadcast
import EthPayServer.Pipeline.Confirmation

/-!
# From the monitors to the outbox

Each chain monitor sends its events on a broadcast channel of its own and then
moves its cursor.  The coordinator's task takes turns over the channels and
hands each event it receives to the bridge, which publishes it.  Sending never
waits and never fails, a receiver that falls behind loses what it missed, and
an error of the handler is logged and nothing else.
-/

namespace EthPayServer.Pipeline

open Lib Evm

/-! ## The monitor's side -/

/--
The parts of a call of the event loop.  What a part announces is sent once its
requests are answered, and then its writes are done.
-/
inductive CallPart where
  | checkContinuity (block : BlockNotification) (now : Time)
  | closeGap (block : BlockNotification) (now : Time)
  | scanBlock (watched : WatchedSet) (block : BlockNotification) (now : Time)
  | checkConfirmations (order : Nat → Nat) (now : Time)

/-- Between the two: the watched set is read, and the gap before the block is closed. -/
def closeGapOf (block : BlockNotification) (now : Time) : MonitorM (Option WatchedSet) := do
  let monitor ← Proc.get
  if monitor.watched.rows.isEmpty then do
    Proc.modify fun monitor => monitor.setCursor block.number block.hash
    pure none
  else do
    if ← ChainMonitor.closeGap monitor.watched monitor.lastBlock block now then
      pure (some monitor.watched)
    else pure none

/-- `process_block` is its three parts in a row. -/
theorem processBlock_parts (block : BlockNotification) (now : Time) :
    ChainMonitor.processBlock block now = (do
      ChainMonitor.checkContinuity block now
      match ← closeGapOf block now with
      | some watched => ChainMonitor.scanBlock watched block now
      | none => pure ()) := by
  funext world i monitor
  simp only [ChainMonitor.processBlock, closeGapOf, Proc.bind_apply]
  congr 1
  funext _ i monitor
  simp only [Proc.get_apply, Outcome.andThen_ok]
  split
  · rfl
  simp only [Proc.bind_apply]
  generalize ChainMonitor.closeGap monitor.watched monitor.lastBlock block now world i monitor = outcome
  rcases outcome with ⟨result, calls, state⟩
  cases result with
  | error e => rfl
  | ok complete => cases complete <;> rfl

namespace CallPart

/-- Run a part; the result is the part that comes next. -/
def program : CallPart → MonitorM (Option CallPart)
  | checkContinuity block now => do
    ChainMonitor.checkContinuity block now
    pure (some (closeGap block now))
  | closeGap block now => do
    let watched ← closeGapOf block now
    pure (watched.map fun watched => scanBlock watched block now)
  | scanBlock watched block now => do
    ChainMonitor.scanBlock watched block now
    pure none
  | checkConfirmations order now => do
    ChainMonitor.checkConfirmations order now
    pure none

/-- The block whose processing the part's announcements come from. -/
def origin (after : ChainMonitor) : CallPart → Option Nat
  | checkContinuity block _ => some block.number
  | closeGap _ _ => after.lastBlock
  | scanBlock _ block _ => some block.number
  | checkConfirmations _ _ => none

/-- What `start` sends when a part fails. -/
def failureNotice (chainId : Nat) : CallPart → List MonitorEvent
  | checkConfirmations _ _ => []
  | _ => [.notice chainId]

end CallPart

inductive Activity where
  | idle
  | ready (part : CallPart)
  /-- `rest` is still to be sent; then the monitor is `after` -/
  | announcing (rest : List MonitorEvent) (origin : Option Nat) (after : ChainMonitor)
      (next : Option CallPart)
  | panicked

/-- An event on a channel, with the block whose processing produced it. -/
structure Sent where
  event : MonitorEvent
  origin : Option Nat

structure Line where
  monitor : ChainMonitor
  activity : Activity
  sent : List Sent
  /-- how far the coordinator's task has received; none before it subscribed -/
  position : Option Nat

variable (line : Line) (part : CallPart) (world : World EvmError Chain)

namespace Line

/-- The requests of a part are answered. -/
def run (line : Line) (part : CallPart) (world : World EvmError Chain) : Line :=
  let outcome := part.program world 0 line.monitor
  let announced := outcome.state.events.drop line.monitor.events.length
  { line with activity := match outcome.result with
      | .ok next => .announcing announced (part.origin outcome.state) outcome.state next
      | .error .panic => .panicked
      | .error _ => .announcing (announced ++ part.failureNotice line.monitor.chainId)
          (part.origin outcome.state) outcome.state none }

def begin (line : Line) (part : CallPart) (world : World EvmError Chain) : Line :=
  match line.activity with
  | .idle => line.run part world
  | _ => line

def proceed (line : Line) (world : World EvmError Chain) : Line :=
  match line.activity with
  | .ready part => line.run part world
  | _ => line

def send (line : Line) : Line :=
  match line.activity with
  | .announcing (event :: rest) origin after next =>
    { line with activity := .announcing rest origin after next, sent := line.sent ++ [⟨event, origin⟩] }
  | _ => line

/-- Everything is sent: the writes of the part.  Watches may have changed meanwhile. -/
def finish (line : Line) : Line :=
  match line.activity with
  | .announcing [] _ after next =>
    { line with
      monitor := { after with watched := line.monitor.watched }
      activity := match next with
        | some part => .ready part
        | none => .idle }
  | _ => line

/-- The event that is sent next. -/
def announces (line : Line) : Option MonitorEvent :=
  match line.activity with
  | .announcing (event :: _) _ _ _ => some event
  | _ => none

end Line

/-! ## The process -/

/-- An event of a chain's channel, by its number there. -/
structure Letter where
  chain : Nat
  index : Nat
  event : MonitorEvent
deriving DecidableEq

structure Evmmonitor where
  lines : Nat → Line
  /-- the receivers of the coordinator's task, the one it asks next, and the event it handles -/
  receivers : List Nat
  turn : Nat
  handling : Option Letter
  outbox : List Letter
  running : Bool

inductive EvmmonitorAction where
  /-- the block stream delivers a block -/
  | block (chain : Nat) (block : BlockNotification) (now : Time) (world : World EvmError Chain)
  /-- the confirmation timer -/
  | tick (chain : Nat) (order : Nat → Nat) (now : Time) (world : World EvmError Chain)
  | proceed (chain : Nat) (world : World EvmError Chain)
  | send (chain : Nat)
  | finish (chain : Nat)
  | watch (chain : Nat) (watched : WatchedAddress)
  | unwatch (chain : Nat) (address : Address) (tokenContract : Option Address)
  /-- the coordinator's `start`, with the receivers in the order of its map -/
  | start (receivers : List Nat)
  | poll
  /-- the handler's publish ends, with or without the entry appended -/
  | publish (appended : Bool)
  /-- the process ends -/
  | stop

namespace Evmmonitor

def updateLine (process : Evmmonitor) (chain : Nat) (change : Line → Line) : Evmmonitor :=
  { process with lines := Function.update process.lines chain (change (process.lines chain)) }

/-- `resubscribe`: the receivers start at the end of their channels. -/
def start (process : Evmmonitor) (receivers : List Nat) : Evmmonitor :=
  if process.receivers.isEmpty then
    { process with
      receivers
      lines := fun chain =>
        if chain ∈ receivers then
          { process.lines chain with position := some (process.lines chain).sent.length }
        else process.lines chain }
  else process

/-- `try_recv` on the receiver whose turn it is. -/
def ask (capacity : Nat) (process : Evmmonitor) (chain : Nat) : Evmmonitor :=
  match (process.lines chain).position with
  | none => { process with turn := process.turn + 1 }
  | some position =>
    let received := Broadcast.tryRecv capacity (process.lines chain).sent position
    { process.updateLine chain fun line => { line with position := some received.2 } with
      turn := process.turn + 1
      handling := received.1.map fun sent => ⟨chain, position, sent.event⟩ }

/-- Ask the next receiver; after the last one the task sleeps and begins again. -/
def poll (capacity : Nat) (process : Evmmonitor) : Evmmonitor :=
  match process.handling, process.receivers[process.turn]? with
  | some _, _ => process
  | none, none => { process with turn := 0 }
  | none, some chain => process.ask capacity chain

def publish (process : Evmmonitor) (appended : Bool) : Evmmonitor :=
  match process.handling with
  | some letter => { process with
      handling := none
      outbox := if appended then process.outbox ++ [letter] else process.outbox }
  | none => process

def perform (capacity : Nat) (process : Evmmonitor) (action : EvmmonitorAction) : Evmmonitor :=
  if process.running then
    match action with
    | .block chain block now world =>
      process.updateLine chain fun line => line.begin (.checkContinuity block now) world
    | .tick chain order now world =>
      process.updateLine chain fun line => line.begin (.checkConfirmations order now) world
    | .proceed chain world => process.updateLine chain fun line => line.proceed world
    | .send chain => process.updateLine chain Line.send
    | .finish chain => process.updateLine chain Line.finish
    | .watch chain watched =>
      process.updateLine chain fun line => { line with monitor := line.monitor.watch watched }
    | .unwatch chain address tokenContract =>
      process.updateLine chain fun line =>
        { line with monitor := line.monitor.unwatch address tokenContract }
    | .start receivers => process.start receivers
    | .poll => process.poll capacity
    | .publish appended => process.publish appended
    | .stop => { process with running := false }
  else process

/-- The task receives from every monitor that was added. -/
def Valid (chains : List Nat) : EvmmonitorAction → Prop
  | .start receivers => receivers.Perm chains
  | _ => True

/-- The monitors are added and announce their start; the coordinator is not started. -/
structure IsInitial (process : Evmmonitor) : Prop where
  lines : ∀ chain, ∃ monitor, process.lines chain =
    ⟨monitor, .announcing [.notice chain] none monitor none, [], none⟩
  receivers : process.receivers = []
  turn : process.turn = 0
  handling : process.handling = none
  outbox : process.outbox = []
  running : process.running = true

/-- One step of the coordinator's task while publishing succeeds. -/
def forward (capacity : Nat) (process : Evmmonitor) : Evmmonitor :=
  match process.handling with
  | some _ => process.publish true
  | none => process.poll capacity

end Evmmonitor

/-- The runs of the monitor process. -/
def evmmonitor (capacity : Nat) (chains : List Nat) : System Evmmonitor EvmmonitorAction where
  initial := Evmmonitor.IsInitial
  step before action after := Evmmonitor.Valid chains action ∧ after = before.perform capacity action

def IsLedgerEvent : MonitorEvent → Prop
  | .notice _ => False
  | _ => True

instance : DecidablePred IsLedgerEvent
  | .notice _ => isFalse id
  | .paymentDetected _ => isTrue trivial
  | .paymentConfirmed _ => isTrue trivial
  | .reorgDetected _ => isTrue trivial

/--
Each event is in the outbox, or the running process still brings it there, or
the cursor has not reached the block that produced it.
-/
def ReachesOutbox (capacity : Nat) (process : Evmmonitor) : Prop :=
  ∀ chain index sent, (process.lines chain).sent[index]? = some sent → IsLedgerEvent sent.event →
    ⟨chain, index, sent.event⟩ ∈ process.outbox ∨
    (process.running = true ∧
      ∃ steps, ⟨chain, index, sent.event⟩ ∈ ((Evmmonitor.forward capacity)^[steps] process).outbox) ∨
    ∃ origin, sent.origin = some origin ∧
      ∀ last, (process.lines chain).monitor.lastBlock = some last → last < origin

variable {chain position position' position'' index : Nat} {first second third after : Evmmonitor}

namespace Evmmonitor

def Outstanding (process : Evmmonitor) (letter : Letter) : Prop :=
  process.handling = some letter ∨
    ∃ position, (process.lines letter.chain).position = some position ∧ position ≤ letter.index

/--
The coordinator subscribes before an event is sent, no channel holds more than
its receiver can still read, publishing succeeds, and the process ends only
when everything is published.
-/
def KeepsUp (capacity : Nat) (process : Evmmonitor) : EvmmonitorAction → Prop
  | .send chain =>
    (∀ event, (process.lines chain).announces = some event → IsLedgerEvent event →
      (process.lines chain).position.isSome) ∧
    ∀ position, (process.lines chain).position = some position →
      (process.lines chain).sent.length < position + capacity
  | .publish appended => ∀ letter, process.handling = some letter → IsLedgerEvent letter.event →
    appended = true
  | .stop => ∀ chain index sent, (process.lines chain).sent[index]? = some sent →
    IsLedgerEvent sent.event → ¬ process.Outstanding ⟨chain, index, sent.event⟩
  | _ => True

/-! ## The task catches up -/

structure Kept (capacity : Nat) (process : Evmmonitor) (chain position : Nat) : Prop where
  subscribed : (process.lines chain).position = some position
  receives : chain ∈ process.receivers
  read : position ≤ (process.lines chain).sent.length
  kept : (process.lines chain).sent.length ≤ position + capacity

variable {capacity : Nat} {process : Evmmonitor}

/--
What the task does to one channel: it goes on at the same number or the next,
and what it passed is in the outbox or being published.
-/
structure Forwards (capacity : Nat) (before : Evmmonitor) (chain position : Nat) (after : Evmmonitor)
    (position' : Nat) : Prop where
  sent : (after.lines chain).sent = (before.lines chain).sent
  kept : after.Kept capacity chain position'
  later : position ≤ position'
  receivers : after.receivers = before.receivers
  outbox : before.outbox ⊆ after.outbox
  held : ∀ letter, before.handling = some letter → letter ∈ after.outbox ∨ after.handling = some letter
  passed : ∀ index sent, position ≤ index → index < position' →
    (before.lines chain).sent[index]? = some sent →
    ⟨chain, index, sent.event⟩ ∈ after.outbox ∨ after.handling = some ⟨chain, index, sent.event⟩

theorem Forwards.refl (kept : process.Kept capacity chain position) :
    process.Forwards capacity chain position process position where
  sent := rfl
  kept := kept
  later := le_rfl
  receivers := rfl
  outbox := List.Subset.refl _
  held _ isHeld := .inr isHeld
  passed index sent low high := absurd high (by omega)

theorem Forwards.trans (one : first.Forwards capacity chain position second position')
    (two : second.Forwards capacity chain position' third position'') :
    first.Forwards capacity chain position third position'' where
  sent := two.sent.trans one.sent
  kept := two.kept
  later := one.later.trans two.later
  receivers := two.receivers.trans one.receivers
  outbox := List.Subset.trans one.outbox two.outbox
  held letter isHeld := (one.held letter isHeld).elim (fun mem => .inl (two.outbox mem)) (two.held letter)
  passed index sent low high here := by
    by_cases early : index < position'
    · exact (one.passed index sent low early here).elim (fun mem => .inl (two.outbox mem)) (two.held _)
    · exact two.passed index sent (by omega) high (by rw [one.sent]; exact here)

theorem forwards_publish (kept : process.Kept capacity chain position) {letter : Letter}
    (isHeld : process.handling = some letter) :
    process.forward capacity = { process with handling := none, outbox := process.outbox ++ [letter] } ∧
      process.Forwards capacity chain position (process.forward capacity) position := by
  have isPublish : process.forward capacity =
      { process with handling := none, outbox := process.outbox ++ [letter] } := by
    simp [forward, publish, isHeld]
  refine ⟨isPublish, ?_⟩
  rw [isPublish]
  refine ⟨rfl, { kept with }, le_rfl, rfl,
    List.subset_append_left _ _, ?_, fun index sent low high => absurd high (by omega)⟩
  intro other isHeld'
  rw [isHeld] at isHeld'
  cases isHeld'
  exact .inl (by simp)

/-- A step that leaves a channel alone. -/
theorem forwards_of_same (kept : process.Kept capacity chain position) (idle : process.handling = none)
    (sent : (after.lines chain).sent = (process.lines chain).sent)
    (subscribed : (after.lines chain).position = some position)
    (receivers : after.receivers = process.receivers) (outbox : after.outbox = process.outbox) :
    process.Forwards capacity chain position after position where
  sent := sent
  kept := ⟨subscribed, receivers ▸ kept.receives, sent ▸ kept.read, sent ▸ kept.kept⟩
  later := le_rfl
  receivers := receivers
  outbox := outbox ▸ List.Subset.refl _
  held letter isHeld := by simp [idle] at isHeld
  passed index sent low high := absurd high (by omega)

theorem turn_ask (process : Evmmonitor) (chain : Nat) :
    (process.ask capacity chain).turn = process.turn + 1 := by
  unfold ask
  split <;> rfl

section

variable (kept : process.Kept capacity chain position)
include kept

variable (idle : process.handling = none)
include idle

/-- Asking the receiver of another channel. -/
theorem forwards_ask_other {asked : Nat} (other : chain ≠ asked) :
    process.Forwards capacity chain position (process.ask capacity asked) position := by
  unfold ask
  split
  · exact forwards_of_same kept idle rfl kept.subscribed rfl rfl
  · refine forwards_of_same kept idle ?_ ?_ rfl rfl
    · simp [updateLine, other]
    · simpa [updateLine, other] using kept.subscribed

/-- Asking the receiver of a channel that is read to its end. -/
theorem forwards_ask_read (allRead : (process.lines chain).sent.length ≤ position) :
    process.Forwards capacity chain position (process.ask capacity chain) position := by
  simp only [ask, kept.subscribed, Broadcast.tryRecv_of_le kept.kept allRead]
  exact forwards_of_same kept idle (by simp [updateLine]) (by simp [updateLine]) rfl rfl

/-- Asking the receiver of a channel with an unread event. -/
theorem forwards_ask_unread (unread : position < (process.lines chain).sent.length) :
    process.Forwards capacity chain position (process.ask capacity chain) (position + 1) := by
  have here := List.getElem?_eq_getElem unread
  have isKept := kept.kept
  simp only [ask, kept.subscribed, Broadcast.tryRecv_of_lt kept.kept here]
  refine ⟨by simp [updateLine], ⟨by simp [updateLine], kept.receives, ?_, ?_⟩, Nat.le_succ _, rfl,
    List.Subset.refl _, by simp [idle], ?_⟩
  · simp only [updateLine, Function.update_self]
    omega
  · simp only [updateLine, Function.update_self]
    omega
  intro index sent low high isSent
  obtain rfl : index = position := by omega
  rw [here] at isSent
  cases isSent
  exact .inr rfl

/-- One turn of the task; a channel's own turn brings its next event. -/
theorem forwards_poll :
    ∃ position', process.Forwards capacity chain position (process.forward capacity) position' ∧
      ((process.receivers[process.turn]? = none ∧ (process.forward capacity).turn = 0) ∨
        ∃ asked, process.receivers[process.turn]? = some asked ∧
          (process.forward capacity).turn = process.turn + 1 ∧
          (asked = chain → position < (process.lines chain).sent.length → position < position')) := by
  cases isAsked : process.receivers[process.turn]? with
  | none =>
    have isSleep : process.forward capacity = { process with turn := 0 } := by
      simp [forward, poll, idle, isAsked]
    rw [isSleep]
    exact ⟨position, forwards_of_same kept idle rfl kept.subscribed rfl rfl, .inl ⟨rfl, rfl⟩⟩
  | some asked =>
    have isAsk : process.forward capacity = process.ask capacity asked := by
      simp [forward, poll, idle, isAsked]
    rw [isAsk, turn_ask]
    by_cases own : asked = chain
    · subst own
      by_cases unread : position < (process.lines asked).sent.length
      · exact ⟨position + 1, forwards_ask_unread kept idle unread,
          .inr ⟨asked, rfl, rfl, fun _ _ => Nat.lt_succ_self _⟩⟩
      · exact ⟨position, forwards_ask_read kept idle (by omega),
          .inr ⟨asked, rfl, rfl, fun _ low => absurd low unread⟩⟩
    · exact ⟨position, forwards_ask_other kept idle fun same => own same.symm,
        .inr ⟨asked, rfl, rfl, fun same => absurd same own⟩⟩

end

/-- Some steps of the task lead to a state that forwards, and between two events. -/
def CatchesUp (capacity : Nat) (before : Evmmonitor) (chain position : Nat) (after : Evmmonitor)
    (position' : Nat) : Prop :=
  (∃ steps, after = (forward capacity)^[steps] before) ∧
    before.Forwards capacity chain position after position'

theorem CatchesUp.trans (one : first.CatchesUp capacity chain position second position')
    (two : second.CatchesUp capacity chain position' third position'') :
    first.CatchesUp capacity chain position third position'' := by
  obtain ⟨⟨steps, rfl⟩, forwards⟩ := one
  obtain ⟨⟨steps', rfl⟩, forwards'⟩ := two
  exact ⟨⟨steps' + steps, (Function.iterate_add_apply _ _ _ _).symm⟩, forwards.trans forwards'⟩

theorem CatchesUp.one
    (forwards : process.Forwards capacity chain position (process.forward capacity) position') :
    process.CatchesUp capacity chain position (process.forward capacity) position' :=
  ⟨⟨1, rfl⟩, forwards⟩

/-- What is being handled gets published. -/
theorem exists_idle (kept : process.Kept capacity chain position) :
    ∃ after, process.CatchesUp capacity chain position after position ∧ after.handling = none ∧
      after.turn = process.turn := by
  cases isHeld : process.handling with
  | none => exact ⟨process, ⟨⟨0, rfl⟩, Forwards.refl kept⟩, isHeld, rfl⟩
  | some letter =>
    obtain ⟨isPublish, forwards⟩ := forwards_publish kept isHeld
    refine ⟨_, CatchesUp.one forwards, ?_, ?_⟩ <;> rw [isPublish]

/-- How many turns there are before the turn of a receiver. -/
def turnsBefore (receivers : List Nat) (target turn : Nat) : Nat :=
  if turn ≤ target then target - turn else receivers.length - turn + 1 + target

/-- The turn of a channel comes: by induction on the turns before it. -/
theorem exists_read {target : Nat} (atTarget : process.receivers[target]? = some chain)
    (kept : process.Kept capacity chain position) (unread : position < (process.lines chain).sent.length) :
    ∃ after position', process.CatchesUp capacity chain position after position' ∧ position < position' := by
  generalize isDistance : turnsBefore process.receivers target process.turn = distance
  induction distance using Nat.strong_induction_on generalizing process with
  | _ distance ih =>
    obtain ⟨resting, caught, idle, sameTurn⟩ := exists_idle kept
    have forwards := caught.2
    obtain ⟨position', polled, turned⟩ := forwards_poll forwards.kept idle
    have caught' := caught.trans (CatchesUp.one polled)
    rcases polled.later.lt_or_eq with moved | rfl
    · exact ⟨_, _, caught', moved⟩
    rw [forwards.receivers, sameTurn] at turned
    -- the channel was not asked, so its turn is nearer now
    have nearer : turnsBefore process.receivers target (resting.forward capacity).turn < distance := by
      rw [← isDistance]
      have bound := (List.getElem?_eq_some_iff.mp atTarget).1
      rcases turned with ⟨isLast, isTurn⟩ | ⟨asked, isAsked, isTurn, reads⟩
      · have past := List.getElem?_eq_none_iff.mp isLast
        simp only [turnsBefore, isTurn]
        split <;> split <;> omega
      have bound' := (List.getElem?_eq_some_iff.mp isAsked).1
      have differs : process.turn ≠ target := by
        intro same
        rw [same, atTarget] at isAsked
        have := reads (Option.some.inj isAsked).symm (by rw [forwards.sent]; exact unread)
        omega
      simp only [turnsBefore, isTurn]
      split <;> split <;> omega
    have sameReceivers := polled.receivers.trans forwards.receivers
    obtain ⟨after, position'', further, read⟩ := ih _ nearer (by rw [sameReceivers]; exact atTarget)
      polled.kept (by rw [polled.sent, forwards.sent]; exact unread) (by rw [sameReceivers])
    exact ⟨after, position'', caught'.trans further, read⟩

/-- The task reads a channel to its end: by induction on what is unread. -/
theorem exists_allRead (kept : process.Kept capacity chain position) :
    ∃ after, process.CatchesUp capacity chain position after (process.lines chain).sent.length := by
  obtain ⟨target, atTarget⟩ := List.mem_iff_getElem?.mp kept.receives
  generalize isUnread : (process.lines chain).sent.length - position = unread
  induction unread using Nat.strong_induction_on generalizing process position with
  | _ unread ih =>
    by_cases allRead : position = (process.lines chain).sent.length
    · rw [← allRead]
      exact ⟨process, ⟨0, rfl⟩, Forwards.refl kept⟩
    have low := kept.read
    obtain ⟨next, position', caught, read⟩ := exists_read atTarget kept (by omega)
    have forwards := caught.2
    obtain ⟨after, further⟩ := ih _ (by rw [forwards.sent]; omega) forwards.kept
      (by rw [forwards.receivers]; exact atTarget) rfl
    rw [forwards.sent] at further
    exact ⟨after, caught.trans further⟩

/-- Everything unread on a channel comes to the outbox. -/
theorem exists_published (kept : process.Kept capacity chain position) {sent : Sent}
    (here : (process.lines chain).sent[index]? = some sent) (unread : position ≤ index) :
    ∃ steps, ⟨chain, index, sent.event⟩ ∈ ((forward capacity)^[steps] process).outbox := by
  obtain ⟨read, caught⟩ := exists_allRead kept
  obtain ⟨after, caught', idle, _⟩ := exists_idle caught.2.kept
  obtain ⟨⟨steps, rfl⟩, forwards⟩ := caught.trans caught'
  have bound := (List.getElem?_eq_some_iff.mp here).1
  exact ⟨steps, (forwards.passed index sent unread bound here).resolve_right (by simp [idle])⟩

/-! ## Every run -/

/-- Everything sent is published or outstanding, and no receiver has missed anything. -/
structure Sound (capacity : Nat) (process : Evmmonitor) : Prop where
  kept : ∀ chain position, (process.lines chain).position = some position →
    process.Kept capacity chain position
  accounted : ∀ chain index sent, (process.lines chain).sent[index]? = some sent →
    IsLedgerEvent sent.event → ⟨chain, index, sent.event⟩ ∈ process.outbox ∨
      process.Outstanding ⟨chain, index, sent.event⟩
  ended : process.running = false → ∀ chain index sent,
    (process.lines chain).sent[index]? = some sent → IsLedgerEvent sent.event →
      ⟨chain, index, sent.event⟩ ∈ process.outbox

/-- A channel on which nothing is sent or received. -/
theorem Kept.of_same (kept : process.Kept capacity chain position)
    (sent : (after.lines chain).sent = (process.lines chain).sent)
    (position' : (after.lines chain).position = (process.lines chain).position)
    (receivers : after.receivers = process.receivers) : after.Kept capacity chain position :=
  ⟨position'.trans kept.subscribed, receivers ▸ kept.receives, sent ▸ kept.read, sent ▸ kept.kept⟩

/-- A step of one monitor that sends nothing. -/
theorem Sound.quiet (sound : process.Sound capacity) (chain : Nat) {change : Line → Line}
    (quiet : ∀ line, (change line).sent = line.sent ∧ (change line).position = line.position) :
    (process.updateLine chain change).Sound capacity := by
  have same : ∀ other, ((process.updateLine chain change).lines other).sent = (process.lines other).sent ∧
      ((process.updateLine chain change).lines other).position = (process.lines other).position := by
    intro other
    by_cases here : other = chain
    · subst here
      simpa [updateLine] using quiet _
    · simp [updateLine, here]
  refine ⟨?_, ?_, ?_⟩
  · intro other position subscribed
    rw [(same other).2] at subscribed
    exact (sound.kept other position subscribed).of_same (same other).1 (same other).2 rfl
  · intro other index sent here isLedger
    rw [(same other).1] at here
    refine (sound.accounted other index sent here isLedger).imp_right fun outstanding => ?_
    unfold Outstanding at outstanding ⊢
    rwa [(same other).2]
  · intro ended other index sent here
    rw [(same other).1] at here
    exact sound.ended ended other index sent here

theorem sent_run : (line.run part world).sent = line.sent ∧ (line.run part world).position = line.position :=
  ⟨rfl, rfl⟩

theorem sent_begin :
    (line.begin part world).sent = line.sent ∧ (line.begin part world).position = line.position := by
  unfold Line.begin
  split
  · exact sent_run line part world
  · exact ⟨rfl, rfl⟩

theorem sent_proceed :
    (line.proceed world).sent = line.sent ∧ (line.proceed world).position = line.position := by
  unfold Line.proceed
  split
  · exact sent_run line _ world
  · exact ⟨rfl, rfl⟩

theorem sent_finish : line.finish.sent = line.sent ∧ line.finish.position = line.position := by
  unfold Line.finish
  split <;> exact ⟨rfl, rfl⟩

theorem send_cases :
    line.send = line ∨ ∃ event origin, line.announces = some event ∧
      line.send.sent = line.sent ++ [⟨event, origin⟩] ∧ line.send.position = line.position := by
  unfold Line.send Line.announces
  split
  next event rest origin after next isAnnouncing => exact .inr ⟨event, origin, rfl, rfl, rfl⟩
  · exact .inl rfl

theorem Sound.send (sound : process.Sound capacity) (alive : process.running = true)
    (condition : process.KeepsUp capacity (.send chain)) :
    (process.updateLine chain Line.send).Sound capacity := by
  obtain ⟨subscribes, fits⟩ := condition
  rcases send_cases (process.lines chain) with unchanged | ⟨event, origin, announces, isSent, isPosition⟩
  · have same : process.updateLine chain Line.send = process := by
      simp [updateLine, unchanged]
    rw [same]
    exact sound
  refine ⟨?_, ?_, ?_⟩
  · intro other position subscribed
    by_cases same : other = chain
    · subst same
      simp only [updateLine, Function.update_self] at subscribed
      rw [isPosition] at subscribed
      have old := sound.kept other position subscribed
      have room := fits position subscribed
      have low := old.read
      refine ⟨by simpa [updateLine] using isPosition.trans subscribed, old.receives, ?_, ?_⟩ <;>
        simp only [updateLine, Function.update_self, isSent, List.length_append, List.length_singleton] <;>
        omega
    simp only [updateLine, Function.update_of_ne same] at subscribed
    have unmoved : (process.updateLine chain Line.send).lines other = process.lines other :=
      Function.update_of_ne same ..
    exact (sound.kept other position subscribed).of_same (by rw [unmoved]) (by rw [unmoved]) rfl
  · intro other index sent here isLedger
    by_cases same : other = chain
    · subst same
      simp only [updateLine, Function.update_self] at here
      rw [isSent] at here
      rcases Nat.lt_or_ge index (process.lines other).sent.length with old | new
      · rw [List.getElem?_append_left old] at here
        refine (sound.accounted other index sent here isLedger).imp_right fun outstanding => ?_
        refine outstanding.imp_right ?_
        rintro ⟨position, subscribed, low⟩
        exact ⟨position, by simpa [updateLine] using isPosition.trans subscribed, low⟩
      rw [List.getElem?_append_right new] at here
      obtain rfl := List.mem_singleton.mp (List.mem_of_getElem? here)
      obtain ⟨position, subscribed⟩ := Option.isSome_iff_exists.mp (subscribes event announces isLedger)
      have low := (sound.kept other position subscribed).read
      exact .inr (.inr ⟨position, by simpa [updateLine] using isPosition.trans subscribed, by
        show position ≤ index
        omega⟩)
    · simp only [updateLine, Function.update_of_ne same] at here
      refine (sound.accounted other index sent here isLedger).imp_right fun outstanding => ?_
      exact outstanding.imp_right fun unread => by simpa [updateLine, same] using unread
  · intro ended
    exact absurd (alive.symm.trans ended) (by simp)

theorem Sound.start (sound : process.Sound capacity) (receivers : List Nat) :
    (process.start receivers).Sound capacity := by
  unfold Evmmonitor.start
  split
  next fresh =>
    have unsubscribed : ∀ chain, (process.lines chain).position = none := by
      intro chain
      refine Option.eq_none_iff_forall_ne_some.mpr fun position subscribed => ?_
      have receives := (sound.kept chain position subscribed).receives
      rw [List.isEmpty_iff.mp fresh] at receives
      cases receives
    have published : ∀ chain index sent, (process.lines chain).sent[index]? = some sent →
        IsLedgerEvent sent.event → ⟨chain, index, sent.event⟩ ∈ process.outbox ∨
          process.handling = some ⟨chain, index, sent.event⟩ := by
      intro chain index sent here isLedger
      refine (sound.accounted chain index sent here isLedger).imp_right ?_
      rintro (isHeld | ⟨position, subscribed, _⟩)
      · exact isHeld
      · rw [unsubscribed] at subscribed
        cases subscribed
    have sameSent : ∀ chain, (if chain ∈ receivers then
        { process.lines chain with position := some (process.lines chain).sent.length }
        else process.lines chain).sent = (process.lines chain).sent := by
      intro chain
      split <;> rfl
    refine ⟨?_, ?_, ?_⟩
    · intro chain position subscribed
      by_cases receives : chain ∈ receivers
      · simp only [receives, if_true, Option.some.injEq] at subscribed
        subst subscribed
        exact ⟨by simp [receives], receives, by simp [receives], by simp [receives]⟩
      · simp only [receives, if_false, unsubscribed] at subscribed
        cases subscribed
    · intro chain index sent here isLedger
      simp only [sameSent] at here
      exact (published chain index sent here isLedger).imp_right .inl
    · intro ended chain index sent here
      simp only [sameSent] at here
      exact sound.ended ended chain index sent here
  · exact sound

/-- What a channel's receiver has passed and what is handled stay accounted for. -/
theorem Outstanding.forward (kept : process.Kept capacity chain position)
    (forwards : process.Forwards capacity chain position after position') {sent : Sent}
    (here : (process.lines chain).sent[index]? = some sent)
    (outstanding : process.Outstanding ⟨chain, index, sent.event⟩) :
    ⟨chain, index, sent.event⟩ ∈ after.outbox ∨ after.Outstanding ⟨chain, index, sent.event⟩ := by
  rcases outstanding with isHeld | ⟨position'', subscribed, low⟩
  · exact (forwards.held _ isHeld).imp_right .inl
  obtain rfl : position'' = position := by
    have := subscribed.symm.trans kept.subscribed
    simpa using this
  by_cases passed : index < position'
  · exact (forwards.passed index sent low passed here).imp_right .inl
  · exact .inr (.inr ⟨position', forwards.kept.subscribed, by simpa using passed⟩)

/-- A channel the task does not receive from is left alone. -/
theorem lines_poll_of_none (unsubscribed : (process.lines chain).position = none) :
    (process.poll capacity).lines chain = process.lines chain ∧
      (process.poll capacity).outbox = process.outbox := by
  unfold Evmmonitor.poll ask
  split
  · exact ⟨rfl, rfl⟩
  · exact ⟨rfl, rfl⟩
  next asked _ _ =>
    split
    · exact ⟨rfl, rfl⟩
    next position subscribed =>
      have other : chain ≠ asked := by
        rintro rfl
        rw [unsubscribed] at subscribed
        cases subscribed
      exact ⟨by simp [updateLine, other], rfl⟩

theorem running_poll : (process.poll capacity).running = process.running := by
  unfold Evmmonitor.poll ask
  split
  · rfl
  · rfl
  · split <;> rfl

section

variable (sound : process.Sound capacity)
include sound

theorem Sound.poll (alive : process.running = true) : (process.poll capacity).Sound capacity := by
  cases isHeld : process.handling with
  | some letter =>
    have same : process.poll capacity = process := by simp [Evmmonitor.poll, isHeld]
    rw [same]
    exact sound
  | none =>
    have isPoll : process.forward capacity = process.poll capacity := by simp [forward, isHeld]
    refine ⟨?_, ?_, ?_⟩
    · intro chain position' subscribed'
      cases before : (process.lines chain).position with
      | none =>
        rw [(lines_poll_of_none before).1, before] at subscribed'
        cases subscribed'
      | some position =>
        obtain ⟨position'', forwards, _⟩ := forwards_poll (sound.kept chain position before) isHeld
        rw [isPoll] at forwards
        obtain rfl : position'' = position' := by
          simpa using forwards.kept.subscribed.symm.trans subscribed'
        exact forwards.kept
    · intro chain index sent here isLedger
      cases before : (process.lines chain).position with
      | none =>
        obtain ⟨sameLine, sameOutbox⟩ := @lines_poll_of_none chain capacity process before
        rw [sameLine] at here
        rw [sameOutbox]
        refine .inl ((sound.accounted chain index sent here isLedger).resolve_right ?_)
        rintro (held | ⟨position, subscribed, _⟩)
        · simp [isHeld] at held
        · simp [before] at subscribed
      | some position =>
        have kept := sound.kept chain position before
        obtain ⟨position', forwards, _⟩ := forwards_poll kept isHeld
        rw [isPoll] at forwards
        rw [forwards.sent] at here
        exact (sound.accounted chain index sent here isLedger).elim
          (fun mem => .inl (forwards.outbox mem)) (Outstanding.forward kept forwards here)
    · intro ended
      rw [running_poll, alive] at ended
      cases ended

theorem Sound.publish (alive : process.running = true) {appended : Bool}
    (condition : process.KeepsUp capacity (.publish appended)) : (process.publish appended).Sound capacity := by
  unfold Evmmonitor.publish
  split
  next letter isHeld =>
    refine ⟨?_, ?_, fun ended => absurd (alive.symm.trans ended) (by simp)⟩
    · intro chain position subscribed
      exact (sound.kept chain position subscribed).of_same rfl rfl rfl
    intro chain index sent here isLedger
    rcases sound.accounted chain index sent here isLedger with published | held | unread
    · refine .inl ?_
      dsimp only
      split
      · exact List.mem_append_left _ published
      · exact published
    · rw [isHeld] at held
      cases held
      rw [condition _ isHeld isLedger]
      exact .inl (by simp)
    · exact .inr (.inr unread)
  · exact sound

theorem Sound.stop (condition : process.KeepsUp capacity .stop) :
    Sound capacity { process with running := false } where
  kept chain position subscribed := (sound.kept chain position subscribed).of_same rfl rfl rfl
  accounted := sound.accounted
  ended _ chain index sent here isLedger :=
    (sound.accounted chain index sent here isLedger).resolve_right (condition chain index sent here isLedger)

theorem Sound.step {action : EvmmonitorAction} (condition : process.KeepsUp capacity action) :
    (process.perform capacity action).Sound capacity := by
  unfold perform
  split
  next alive =>
    cases action with
    | block chain block now world =>
      exact sound.quiet chain fun line => sent_begin line _ world
    | tick chain order now world =>
      exact sound.quiet chain fun line => sent_begin line _ world
    | proceed chain world =>
      exact sound.quiet chain fun line => sent_proceed line world
    | send chain => exact sound.send alive condition
    | finish chain => exact sound.quiet chain sent_finish
    | watch chain watched => exact sound.quiet chain fun _ => ⟨rfl, rfl⟩
    | unwatch chain address tokenContract => exact sound.quiet chain fun _ => ⟨rfl, rfl⟩
    | start receivers => exact sound.start receivers
    | poll => exact sound.poll alive
    | publish appended => exact sound.publish alive condition
    | stop => exact sound.stop condition
  · exact sound

end

/-- Before the coordinator starts nothing but the monitors' start is announced. -/
theorem sound_initial (initial : process.IsInitial) : process.Sound capacity := by
  have silent : ∀ chain, (process.lines chain).position = none ∧ (process.lines chain).sent = [] := by
    intro chain
    obtain ⟨monitor, isLine⟩ := initial.lines chain
    rw [isLine]
    exact ⟨rfl, rfl⟩
  exact ⟨by simp [silent], by simp [silent], by simp [silent]⟩

end Evmmonitor

/--
In every run in which the coordinator subscribes before a ledger event is sent,
its receivers keep up, publishing succeeds and the process ends only when
nothing is outstanding, every ledger event that was sent is in the outbox or is
brought there by the running process.
-/
theorem announced_reaches_outbox (capacity : Nat) (chains : List Nat) {process : Evmmonitor}
    (reached : ((evmmonitor capacity chains).restrict (Evmmonitor.KeepsUp capacity)).Reachable process) :
    ReachesOutbox capacity process := by
  have sound : process.Sound capacity := by
    refine reached.invariant (I := Evmmonitor.Sound capacity) Evmmonitor.sound_initial ?_
    rintro before action after _ sound ⟨⟨_, rfl⟩, condition⟩
    exact sound.step condition
  intro chain index sent here isLedger
  cases alive : process.running with
  | false => exact .inl (sound.ended alive chain index sent here isLedger)
  | true =>
    refine (sound.accounted chain index sent here isLedger).imp_right fun outstanding => .inl ⟨rfl, ?_⟩
    rcases outstanding with isHeld | ⟨position, subscribed, unread⟩
    · exact ⟨1, by simp [Evmmonitor.forward, Evmmonitor.publish, isHeld]⟩
    · exact Evmmonitor.exists_published (sound.kept chain position subscribed) here unread

/-! ## A payment that is published, and four that are not -/

/-- The monitor of chain 1 watches address 5; the coordinator is not started. -/
def addedMonitors : Evmmonitor where
  lines chain := ⟨sampleNode.monitor, .announcing [.notice chain] none sampleNode.monitor none, [], none⟩
  receivers := []
  turn := 0
  handling := none
  outbox := []
  running := true

theorem addedMonitors_initial : addedMonitors.IsInitial :=
  ⟨fun _ => ⟨_, rfl⟩, rfl, rfl, rfl, rfl, rfl⟩

def evolves (capacity : Nat) (process : Evmmonitor) (actions : List EvmmonitorAction) : Evmmonitor :=
  actions.foldl (Evmmonitor.perform capacity) process

def announceStart : List EvmmonitorAction := [.send 1, .finish 1]

/-- Block 1, which holds a payment, is processed up to its announcement. -/
def detectPayment : List EvmmonitorAction :=
  [.block 1 paidBlock.notification 0 (answering paidChain), .finish 1, .proceed 1 (answering paidChain),
    .finish 1, .proceed 1 (answering paidChain), .send 1]

/-- The cursor moves onto block 1 and, with the next block, past it. -/
def movePast : List EvmmonitorAction :=
  [.finish 1, .block 1 ⟨2, 102, 101⟩ 0 (answering paidChain), .finish 1, .proceed 1 (answering paidChain),
    .finish 1, .proceed 1 (answering paidChain), .finish 1]

/-- Sending is harmless before anyone listens, if nothing but a notice is sent. -/
theorem keepsUp_send_notice {capacity : Nat} {process : Evmmonitor}
    (announces : (process.lines chain).announces = some (.notice chain))
    (unsubscribed : (process.lines chain).position = none) : process.KeepsUp capacity (.send chain) := by
  refine ⟨?_, by simp [unsubscribed]⟩
  intro event announces' isLedger
  rw [announces] at announces'
  cases announces'
  exact isLedger.elim

/-- The payment of block 1 is announced to a coordinator that has subscribed. -/
def announcedPayment : Evmmonitor :=
  evolves 4 addedMonitors (announceStart ++ [.start [1]] ++ detectPayment)

def publishedPayment : Evmmonitor :=
  evolves 4 announcedPayment ([.poll, .publish true] ++ movePast)

theorem announcedPayment_reachable :
    ((evmmonitor 4 [1]).restrict (Evmmonitor.KeepsUp 4)).Reachable announcedPayment := by
  have started : ((evmmonitor 4 [1]).restrict (Evmmonitor.KeepsUp 4)).Reachable
      (evolves 4 addedMonitors [.send 1]) :=
    (System.Reachable.of_initial addedMonitors_initial).snoc (a := .send 1)
      ⟨⟨trivial, rfl⟩, keepsUp_send_notice rfl rfl⟩
  have detected : ((evmmonitor 4 [1]).restrict (Evmmonitor.KeepsUp 4)).Reachable
      (evolves 4 (evolves 4 addedMonitors [.send 1])
        ([.finish 1, .start [1]] ++ detectPayment.dropLast)) :=
    started.foldl (by
      simp [System.restrict, evmmonitor, Evmmonitor.Valid, Evmmonitor.KeepsUp, detectPayment])
  have room : ((evolves 4 (evolves 4 addedMonitors [.send 1])
        ([.finish 1, .start [1]] ++ detectPayment.dropLast)).lines 1).sent.length = 1 := by decide +kernel
  have subscribed : ((evolves 4 (evolves 4 addedMonitors [.send 1])
        ([.finish 1, .start [1]] ++ detectPayment.dropLast)).lines 1).position = some 1 := by decide +kernel
  refine detected.snoc (a := .send 1) ⟨⟨trivial, rfl⟩, ?_, ?_⟩
  · intro _ _ _
    rw [subscribed]
    rfl
  intro position isPosition
  rw [subscribed] at isPosition
  cases isPosition
  rw [room]
  decide

theorem announced_reaches_outbox_published :
    publishedPayment.outbox.map (fun letter => (letter.chain, letter.index)) = [(1, 1)] ∧
      ReachesOutbox 4 publishedPayment := by
  refine ⟨by decide +kernel, ?_⟩
  have polled : ((evmmonitor 4 [1]).restrict (Evmmonitor.KeepsUp 4)).Reachable
      (evolves 4 announcedPayment ([.poll, .publish true] ++ movePast)) :=
    announcedPayment_reachable.foldl (by
      simp [System.restrict, evmmonitor, Evmmonitor.Valid, Evmmonitor.KeepsUp, movePast])
  exact announced_reaches_outbox 4 [1] polled

/-- A second block arrives and its requests fail: a notice is sent. -/
def announceFailure : List EvmmonitorAction :=
  [.block 1 ⟨4, 104, 103⟩ 0 fun _ => .error (.rpc "timeout"), .send 1, .finish 1]

abbrev PaymentLost (process : Evmmonitor) : Prop :=
  process.running = false ∧ (process.lines 1).monitor.lastBlock = some 2 ∧
    ((process.lines 1).sent[1]?.any fun sent => decide (IsLedgerEvent sent.event)) ∧
    ((process.lines 1).sent[1]?.bind Sent.origin) = some 1 ∧
    ∀ letter ∈ process.outbox, (letter.chain, letter.index) ≠ (1, 1)

theorem PaymentLost.not_reachesOutbox {capacity : Nat} {process : Evmmonitor}
    (lost : PaymentLost process) : ¬ ReachesOutbox capacity process := by
  obtain ⟨ended, cursor, isLedger, origin, absent⟩ := lost
  intro reaches
  cases here : (process.lines 1).sent[1]? with
  | none => simp [here] at origin
  | some sent =>
    rw [here] at isLedger origin
    rcases reaches 1 1 sent here (by simpa using isLedger) with published | ⟨alive, _⟩ | ⟨block, isBlock, ahead⟩
    · exact absent _ published rfl
    · rw [ended] at alive
      cases alive
    · have := ahead 2 cursor
      rw [show sent.origin = some 1 from origin] at isBlock
      cases isBlock
      omega

def LosesPayment (capacity : Nat) (actions : List EvmmonitorAction) : Prop :=
  (evmmonitor capacity [1]).Reachable (evolves capacity addedMonitors actions) ∧
    PaymentLost (evolves capacity addedMonitors actions) ∧
    ¬ ReachesOutbox capacity (evolves capacity addedMonitors actions)

theorem losesPayment {capacity : Nat} {actions : List EvmmonitorAction}
    (valid : ∀ action ∈ actions, Evmmonitor.Valid [1] action)
    (lost : PaymentLost (evolves capacity addedMonitors actions)) : LosesPayment capacity actions :=
  ⟨(System.Reachable.of_initial addedMonitors_initial).foldl fun action mem _ => ⟨valid action mem, rfl⟩,
    lost, lost.not_reachesOutbox⟩

def publishFails : List EvmmonitorAction :=
  announceStart ++ [.start [1]] ++ detectPayment ++ [.poll, .publish false] ++ movePast ++ [.stop]

def sentTooEarly : List EvmmonitorAction :=
  announceStart ++ detectPayment ++ [.start [1], .poll] ++ movePast ++ [.stop]

/-- Another event is sent before the task, on a channel of capacity 1, has received the payment. -/
def fallsBehind : List EvmmonitorAction :=
  announceStart ++ [.start [1]] ++ detectPayment ++ movePast ++ announceFailure ++
    [.poll, .poll, .poll, .publish true, .stop]

def endsUnread : List EvmmonitorAction :=
  announceStart ++ [.start [1]] ++ detectPayment ++ movePast ++ [.stop]

theorem announced_and_lost : LosesPayment 4 publishFails ∧ LosesPayment 4 sentTooEarly ∧
    LosesPayment 1 fallsBehind ∧ LosesPayment 4 endsUnread := by
  refine ⟨losesPayment ?_ (by decide +kernel), losesPayment ?_ (by decide +kernel),
    losesPayment ?_ (by decide +kernel), losesPayment ?_ (by decide +kernel)⟩
  · simp [publishFails, announceStart, detectPayment, movePast, Evmmonitor.Valid]
  · simp [sentTooEarly, announceStart, detectPayment, movePast, Evmmonitor.Valid]
  · simp [fallsBehind, announceStart, detectPayment, movePast, announceFailure, Evmmonitor.Valid]
  · simp [endsUnread, announceStart, detectPayment, movePast, Evmmonitor.Valid]

end EthPayServer.Pipeline
