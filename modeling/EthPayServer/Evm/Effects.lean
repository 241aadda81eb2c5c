import EthPayServer.Evm.Processing

/-!
# What a call leaves in the monitor

The events a call of `processBlock` sends and the payments it tracks, in terms
of the blocks its source served.
-/

namespace EthPayServer.Evm

open Lib

variable {event : PaymentDetected} {entry : (B256 × Int) × PendingPayment} {found : List PaymentDetected}

namespace ChainMonitor

/-- A payment to a watched key in a block the source served while a block was processed. -/
def Sound (served : Chain → Prop) (block : BlockNotification) (monitor : ChainMonitor) (now : Time)
    (event : PaymentDetected) : Prop :=
  ∃ chain number scanned hash, served chain ∧ monitor.scanFrom block.number ≤ number ∧
    number ≤ block.number ∧ chain.blockAt? number = some scanned ∧ Labels served block number hash ∧
    (monitor.NativeDetection monitor.watched hash now scanned event ∨
      monitor.TokenDetection monitor.watched now scanned event)

variable {monitor : ChainMonitor}

/-- A sound payment goes to a watched key and carries that watch's invoice. -/
theorem Sound.watched {served : Chain → Prop} {block : BlockNotification} {now : Time}
    (sound : Sound served block monitor now event) :
    event.chainId = monitor.chainId ∧ ∃ watch ∈ monitor.watched.rows,
      watch.1 = (event.paymentAddress, event.tokenAddress) ∧ watch.2.invoiceId = event.invoiceId := by
  obtain ⟨_, _, _, _, _, _, _, _, _, detected⟩ := sound
  rcases detected with ⟨tx, _, recipient, watch, _, _, isWatched, rfl⟩ |
    ⟨_, _, _, _, _, _, recipient, _, watch, _, isWatched, rfl⟩
  all_goals
    obtain ⟨mem, isKey⟩ := Table.find?_eq_some.mp isWatched
    exact ⟨rfl, watch, mem, isKey, rfl⟩

def Tracks (event : PaymentDetected) (entry : (B256 × Int) × PendingPayment) : Prop :=
  ∃ txIndex, event.txIndex = some txIndex ∧
    entry = ((event.txHash, txIndex), ⟨event, event.blockNumber⟩)

theorem events_recordDetected (monitor : ChainMonitor) (event : PaymentDetected) :
    (monitor.recordDetected event).events = monitor.events ++ [.paymentDetected event] := by
  unfold recordDetected
  split <;> rfl

theorem events_foldl (found : List PaymentDetected) (monitor : ChainMonitor) :
    (found.foldl recordDetected monitor).events =
      monitor.events ++ found.map MonitorEvent.paymentDetected := by
  induction found generalizing monitor with
  | nil => simp
  | cons event rest ih =>
    rw [List.foldl_cons, ih, events_recordDetected, List.append_assoc]
    rfl

theorem mem_pending_recordDetected (mem : entry ∈ (monitor.recordDetected event).pending.rows) :
    entry ∈ monitor.pending.rows ∨ Tracks event entry := by
  unfold recordDetected at mem
  split at mem
  next txIndex isIndex =>
    rcases Table.mem_put mem with isNew | ⟨old, _⟩
    · exact .inr ⟨txIndex, isIndex, isNew⟩
    · exact .inl old
  · exact .inl mem

theorem mem_pending_foldl (mem : entry ∈ (found.foldl recordDetected monitor).pending.rows) :
    entry ∈ monitor.pending.rows ∨ ∃ event ∈ found, Tracks event entry := by
  induction found generalizing monitor with
  | nil => exact .inl mem
  | cons event rest ih =>
    rcases ih mem with before | ⟨later, memLater, tracks⟩
    · rcases mem_pending_recordDetected before with old | tracks
      · exact .inl old
      · exact .inr ⟨event, List.mem_cons_self, tracks⟩
    · exact .inr ⟨later, List.mem_cons_of_mem event memLater, tracks⟩

structure SameSetup (monitor state : ChainMonitor) : Prop where
  watched : state.watched = monitor.watched
  config : state.config = monitor.config
  chainId : state.chainId = monitor.chainId

theorem SameSetup.trans {monitor mid state : ChainMonitor} (first : SameSetup monitor mid)
    (second : SameSetup mid state) : SameSetup monitor state where
  watched := second.watched.trans first.watched
  config := second.config.trans first.config
  chainId := second.chainId.trans first.chainId

section Effect

variable {served : Chain → Prop} {block : BlockNotification} {now : Time}
  {monitor mid state : ChainMonitor}

theorem Report.sameSetup (report : Report served block monitor state) : SameSetup monitor state :=
  ⟨report.setup.1, report.setup.2.1, report.setup.2.2.1⟩

theorem Progress.sameSetup (progress : Progress served block now monitor state) :
    SameSetup monitor state :=
  ⟨progress.setup.1, progress.setup.2.1, progress.setup.2.2⟩

section

variable (same : SameSetup monitor mid)
include same

theorem nativeDetection_of_setup {watched : WatchedSet} {hash : B256} {scanned : Block} :
    mid.NativeDetection watched hash now scanned event ↔
      monitor.NativeDetection watched hash now scanned event := by
  simp only [NativeDetection, nativePayment, same.chainId, same.config]

theorem tokenDetection_of_setup {watched : WatchedSet} {scanned : Block} :
    mid.TokenDetection watched now scanned event ↔
      monitor.TokenDetection watched now scanned event := by
  simp only [TokenDetection, tokenPayment, same.chainId, same.config]

theorem Sound.of_setup (later : monitor.scanFrom block.number ≤ mid.scanFrom block.number)
    (sound : Sound served block mid now event) : Sound served block monitor now event := by
  obtain ⟨chain, number, scanned, hash, isServed, low, high, here, labels, detected⟩ := sound
  refine ⟨chain, number, scanned, hash, isServed, later.trans low, high, here, labels, ?_⟩
  rw [same.watched, nativeDetection_of_setup same, tokenDetection_of_setup same] at detected
  exact detected

end

theorem scanFrom_le_number (monitor : ChainMonitor) (number : Nat) : monitor.scanFrom number ≤ number := by
  unfold scanFrom
  split
  · exact min_le_right _ _
  · exact le_rfl

/-- No phase moves the cursor back behind what a call may scan. -/
theorem Progress.scanFrom_le (progress : Progress served block now monitor state) :
    monitor.scanFrom block.number ≤ state.scanFrom block.number := by
  have bound := scanFrom_le_number monitor block.number
  rcases progress with rfl | advance
  · exact le_rfl
  cases advance with
  | unwatched => simpa [scanFrom, setCursor] using bound
  | chunk lastNum chunkTo hash found cursor gap stop scan label =>
    simp only [scanFrom, setCursor, cursor]
    omega
  | block found noGap scan => simpa [scanFrom, setCursor] using bound

structure Announced (served : Chain → Prop) (block : BlockNotification) (now : Time)
    (monitor state : ChainMonitor) (found : List PaymentDetected) : Prop where
  events : state.events = monitor.events ++ found.map MonitorEvent.paymentDetected
  sound : ∀ event ∈ found, Sound served block monitor now event
  pending : ∀ entry ∈ state.pending.rows,
    entry ∈ monitor.pending.rows ∨ ∃ event ∈ found, Tracks event entry

theorem announced_none (monitor : ChainMonitor) (cursor : Option (Nat × B256)) :
    Announced served block now monitor
      (match cursor with | some (number, hash) => monitor.setCursor number hash | none => monitor) [] := by
  refine ⟨?_, by simp, ?_⟩
  · cases cursor <;> simp [setCursor]
  · intro entry mem
    cases cursor <;> exact .inl mem

theorem announced_found {first last number : Nat} {hash : B256}
    (scan : RangeScan served block monitor monitor.watched first last now found)
    (low : monitor.scanFrom block.number ≤ first) (high : last ≤ block.number) :
    Announced served block now monitor ((found.foldl recordDetected monitor).setCursor number hash)
      found := by
  refine ⟨events_foldl found monitor, ?_, fun entry mem => mem_pending_foldl mem⟩
  intro event mem
  obtain ⟨chain, at_, scanned, hash, isServed, above, below, here, labels, detected⟩ :=
    scan.sound event mem
  exact ⟨chain, at_, scanned, hash, isServed, low.trans above, below.trans high, here, labels, detected⟩

theorem Progress.announced (progress : Progress served block now monitor state) :
    ∃ found, Announced served block now monitor state found := by
  rcases progress with rfl | advance
  · exact ⟨[], announced_none state none⟩
  cases advance with
  | unwatched nothing => exact ⟨[], announced_none monitor (some (block.number, block.hash))⟩
  | chunk lastNum chunkTo hash found cursor gap stop scan label =>
    refine ⟨found, announced_found scan ?_ (by omega)⟩
    simp [scanFrom, cursor]
  | block found noGap scan => exact ⟨found, announced_found scan (scanFrom_le_number monitor block.number) le_rfl⟩

structure Effect (served : Chain → Prop) (block : BlockNotification) (now : Time)
    (monitor state : ChainMonitor) : Prop where
  setup : SameSetup monitor state
  sent : ∃ (reports : List ReorgDetected) (found : List PaymentDetected),
    state.events = monitor.events ++ reports.map MonitorEvent.reorgDetected ++
      found.map MonitorEvent.paymentDetected ∧
    (∀ report ∈ reports, IsReport served monitor block report) ∧
    (∀ event ∈ found, Sound served block monitor now event) ∧
    ∀ entry ∈ state.pending.rows, entry ∈ monitor.pending.rows ∨ ∃ event ∈ found, Tracks event entry

/-- The reorganisation check sends its report, if it has one, and changes nothing else. -/
theorem reported_effect (report : mid = monitor ∨ Report served block monitor mid) :
    SameSetup monitor mid ∧ mid.lastBlock = monitor.lastBlock ∧ mid.pending = monitor.pending ∧
      ∃ reports : List ReorgDetected,
        mid.events = monitor.events ++ reports.map MonitorEvent.reorgDetected ∧
        ∀ report ∈ reports, IsReport served monitor block report := by
  rcases report with rfl | report
  · exact ⟨⟨rfl, rfl, rfl⟩, rfl, rfl, [], by simp, by simp⟩
  · refine ⟨report.sameSetup, report.setup.2.2.2.1, report.setup.2.2.2.2.2, ?_⟩
    cases report with
    | quiet _ => exact ⟨[], by simp, by simp⟩
    | reorg report isReport => exact ⟨[report], rfl, by simpa using isReport⟩

theorem Processing.effect (processing : Processing served block now monitor state) :
    Effect served block now monitor state := by
  obtain ⟨reported, mid, report, first, second, _⟩ := processing
  obtain ⟨setup, sameCursor, samePending, reports, isReports, areReports⟩ := reported_effect report
  obtain ⟨found, firstFound⟩ := first.announced
  obtain ⟨more, secondFound⟩ := second.announced
  have sameFrom : monitor.scanFrom block.number = reported.scanFrom block.number := by
    simp [scanFrom, sameCursor]
  refine ⟨(setup.trans first.sameSetup).trans second.sameSetup, reports, found ++ more, ?_, areReports,
    ?_, ?_⟩
  · rw [secondFound.events, firstFound.events, isReports, List.map_append, List.append_assoc]
  · intro event mem
    rcases List.mem_append.mp mem with early | late
    · exact (firstFound.sound event early).of_setup setup sameFrom.le
    · refine (secondFound.sound event late).of_setup (setup.trans first.sameSetup) ?_
      rw [sameFrom]
      exact first.scanFrom_le
  intro entry mem
  rcases secondFound.pending entry mem with early | ⟨event, memEvent, tracks⟩
  · rcases firstFound.pending entry early with old | ⟨event, memEvent, tracks⟩
    · rw [samePending] at old
      exact .inl old
    · exact .inr ⟨event, List.mem_append_left more memEvent, tracks⟩
  · exact .inr ⟨event, List.mem_append_right found memEvent, tracks⟩

end Effect

/-- Every call of `processBlock` has such an effect. -/
theorem processBlock_effect {served : Chain → Prop} {world : World EvmError Chain}
    (truthful : Truthful served world) (block : BlockNotification) (now : Time) (i : Nat)
    (monitor : ChainMonitor) :
    Effect served block now monitor (processBlock block now world i monitor).state := by
  obtain ⟨reported, mid, report, first, second, stops, _⟩ := processBlock_phases truthful block now i monitor
  exact Processing.effect ⟨reported, mid, report, first, second, stops⟩

end ChainMonitor

end EthPayServer.Evm
