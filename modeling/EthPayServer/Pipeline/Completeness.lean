import EthPayServer.Pipeline.Confirmation

/-!
# What the monitor has announced

The monitor reads every height once: what it scanned below its cursor it does
not read again, also when another chain becomes canonical there.  Detection is
complete as long as the blocks it passed, up to the next one announced, are
those it scanned.
-/

namespace EthPayServer.Pipeline

open Lib Evm

def IsAnnounced (events : List MonitorEvent) (number : Nat) (transfer : Transfer) : Prop :=
  ∃ event, .paymentDetected event ∈ events ∧ event.Announces number transfer

variable {number low high top lastNum : Nat} (chain : Chain)

theorem IsAnnounced.mono {events events' : List MonitorEvent} {transfer : Transfer}
    (announced : IsAnnounced events number transfer) (more : events ⊆ events') :
    IsAnnounced events' number transfer := by
  obtain ⟨event, mem, rest⟩ := announced
  exact ⟨event, more mem, rest⟩

/-- Every transfer to a watched key in the blocks above `first` up to `top` is announced. -/
def CoveredTo (chain : Chain) (first : Nat) (monitor : ChainMonitor) (top : Nat) : Prop :=
  ∀ number block, first < number → number ≤ top → chain.blockAt? number = some block →
    ∀ transfer ∈ block.transfers,
      (monitor.watched.find? (transfer.recipient, transfer.token)).isSome →
        IsAnnounced monitor.events number transfer

/-- Every transfer to a key in the blocks from `first` up to, but without, `next` is announced. -/
def AnnouncedBelow (chain : Chain) (events : List MonitorEvent) (keys : WatchKey → Prop)
    (first next : Nat) : Prop :=
  ∀ number block, first ≤ number → number < next → chain.blockAt? number = some block →
    ∀ transfer ∈ block.transfers, keys (transfer.recipient, transfer.token) →
      IsAnnounced events number transfer

/-- Both detection paths are on, as `from_chain` sets them. -/
def DetectsAll (monitor : ChainMonitor) : Prop :=
  monitor.config.monitorNative = true ∧ monitor.config.monitorErc20 = true

variable {found : List PaymentDetected}

section Scan

variable {served : Chain → Prop} {block : BlockNotification} {now : Time} {chain : Chain}
  {monitor state : ChainMonitor} {first : Nat}

theorem found_of_transfer
    (scan : ChainMonitor.RangeScan served block monitor monitor.watched low high now found)
    (only : Solely served chain) (detects : DetectsAll monitor) {scanned : Block} (above : low ≤ number)
    (below : number ≤ high) (here : chain.blockAt? number = some scanned) {transfer : Transfer}
    (mem : transfer ∈ scanned.transfers)
    (isWatched : (monitor.watched.find? (transfer.recipient, transfer.token)).isSome) :
    IsAnnounced (found.map .paymentDetected) number transfer := by
  obtain ⟨watch, isWatch⟩ := Option.isSome_iff_exists.mp isWatched
  have isNumber := Chain.number_of_blockAt? here
  rcases List.mem_append.mp mem with native | token
  · obtain ⟨tx, memTx, moved⟩ := List.mem_filterMap.mp native
    split at moved
    next effective =>
      obtain ⟨recipient, goes, rfl⟩ := Option.map_eq_some_iff.mp moved
      obtain ⟨hash, all⟩ := scan.mem_native detects.1 only above below here
      have detected := all _ ⟨tx, memTx, recipient, watch, goes, effective.2, isWatch, rfl⟩
      exact ⟨_, List.mem_map_of_mem detected, isNumber, rfl, rfl, rfl, rfl, rfl, rfl⟩
    · cases moved
  obtain ⟨⟨⟨txHash, position, log⟩, logIndex⟩, memLog, moved⟩ := List.mem_filterMap.mp token
  obtain ⟨⟨sender, recipient, amount⟩, decoded, rfl⟩ := Option.map_eq_some_iff.mp moved
  have detected := scan.mem_tokens detects.2 only above below here _
    ⟨txHash, position, log, logIndex, memLog, sender, recipient, amount, watch, decoded, isWatch, rfl⟩
  exact ⟨_, List.mem_map_of_mem detected, isNumber, rfl, rfl, rfl, rfl, rfl, rfl⟩

namespace AnnouncedBelow

variable {view : Chain} {keys : WatchKey → Prop} {next : Nat}

theorem mono {events events' : List MonitorEvent} {keys' : WatchKey → Prop} {next' : Nat}
    (announced : AnnouncedBelow chain events keys first next) (more : events ⊆ events')
    (fewer : ∀ key, keys' key → keys key) (lower : next' ≤ next) :
    AnnouncedBelow chain events' keys' first next' := by
  intro number block above below here transfer mem watched
  exact (announced number block above (by omega) here transfer mem (fewer _ watched)).mono more

theorem recorded {hash : B256} (announced : AnnouncedBelow chain monitor.events keys first next)
    (watched : ∀ key, keys key → (monitor.watched.find? key).isSome) (only : Solely served view)
    (scan : ChainMonitor.RangeScan served block monitor monitor.watched low high now found)
    (detects : DetectsAll monitor) (joins : low ≤ next)
    (agree : ∀ number scanned, number ≤ high → chain.blockAt? number = some scanned →
      view.blockAt? number = some scanned) :
    AnnouncedBelow chain
      ((found.foldl ChainMonitor.recordDetected monitor).setCursor high hash).events keys first
      (max next (high + 1)) := by
  intro number scanned above below here transfer mem isKey
  change IsAnnounced (found.foldl ChainMonitor.recordDetected monitor).events number transfer
  rw [ChainMonitor.events_foldl]
  by_cases early : number < next
  · exact (announced number scanned above early here transfer mem isKey).mono
      (List.subset_append_left _ _)
  · have now := found_of_transfer scan only detects (by omega) (by omega)
      (agree number scanned (by omega) here) mem (watched _ isKey)
    exact now.mono (List.subset_append_right _ _)

/-- A phase that moves the cursor leaves no block out behind what was announced. -/
theorem advance (announced : AnnouncedBelow chain monitor.events keys first next)
    (watched : ∀ key, keys key → (monitor.watched.find? key).isSome) (only : Solely served view)
    (detects : DetectsAll monitor)
    (agree : ∀ number scanned, number ≤ block.number → chain.blockAt? number = some scanned →
      view.blockAt? number = some scanned)
    (joins : monitor.scanFrom block.number ≤ next)
    (advance : ChainMonitor.Advance served block now monitor state) :
    ∃ cursor, state.lastBlock = some cursor ∧
      AnnouncedBelow chain state.events keys first (max next (cursor + 1)) := by
  cases advance with
  | unwatched nothing =>
    refine ⟨block.number, rfl, ?_⟩
    intro number scanned _ _ _ transfer _ isKey
    have isWatched := watched _ isKey
    simp [Table.find?, nothing] at isWatched
  | chunk lastNum chunkTo hash found cursor gap stop scan label =>
    simp only [ChainMonitor.scanFrom, cursor] at joins
    refine ⟨chunkTo, rfl, announced.recorded watched only scan detects (by omega) ?_⟩
    exact fun number scanned low => agree number scanned (by omega)
  | block found noGap scan =>
    refine ⟨block.number, rfl, announced.recorded watched only scan detects ?_ agree⟩
    unfold ChainMonitor.scanFrom at joins
    split at joins
    next lastNum cursor =>
      have := noGap lastNum cursor
      omega
    · exact joins

/-- A call leaves no block out either; where it succeeds or moves the cursor, it announced up to there. -/
theorem processBlock {world : World EvmError Chain}
    (announced : AnnouncedBelow chain monitor.events keys first next) (truthful : Truthful served world)
    (watched : ∀ key, keys key → (monitor.watched.find? key).isSome) (only : Solely served view)
    (detects : DetectsAll monitor)
    (agree : ∀ number scanned, number ≤ block.number → chain.blockAt? number = some scanned →
      view.blockAt? number = some scanned)
    (joins : monitor.scanFrom block.number ≤ next) :
    let outcome := ChainMonitor.processBlock block now world 0 monitor
    ∃ next', next ≤ next' ∧ AnnouncedBelow chain outcome.state.events keys first next' ∧
      (outcome.result = .ok () ∨ outcome.state.lastBlock ≠ monitor.lastBlock →
        ∃ cursor, outcome.state.lastBlock = some cursor ∧ cursor < next') := by
  intro outcome
  obtain ⟨reported, mid, report, phase, phase', _, succeeded, _⟩ :=
    ChainMonitor.processBlock_phases truthful block now 0 monitor
  obtain ⟨setup, sameCursor, _, reports, isReports, _⟩ := ChainMonitor.reported_effect report
  have setupMid := setup.trans phase.sameSetup
  have announced' : AnnouncedBelow chain reported.events keys first next := by
    refine announced.mono ?_ (fun _ => id) le_rfl
    rw [isReports]
    exact List.subset_append_left _ _
  have joins' : reported.scanFrom block.number ≤ next := by
    simpa only [ChainMonitor.scanFrom, sameCursor] using joins
  have first' : ∃ next', next ≤ next' ∧ AnnouncedBelow chain mid.events keys first next' ∧
      mid.scanFrom block.number ≤ next' ∧
      (mid.lastBlock = monitor.lastBlock ∨ ∃ cursor, mid.lastBlock = some cursor ∧ cursor < next') := by
    rcases phase with rfl | advance
    · exact ⟨next, le_rfl, announced', joins', .inl sameCursor⟩
    obtain ⟨cursor, isCursor, announcedMid⟩ := announced'.advance (by rwa [setup.watched]) only
      (by rwa [DetectsAll, setup.config]) agree joins' advance
    refine ⟨_, le_max_left _ _, announcedMid, ?_, .inr ⟨cursor, isCursor, by omega⟩⟩
    simp only [ChainMonitor.scanFrom, isCursor]
    omega
  obtain ⟨next', grown, announcedMid, joinsMid, cursorMid⟩ := first'
  by_cases advances : ChainMonitor.Advance served block now mid outcome.state
  · obtain ⟨cursor, isCursor, announced''⟩ := announcedMid.advance (by rwa [setupMid.watched]) only
      (by rwa [DetectsAll, setupMid.config]) agree joinsMid advances
    exact ⟨_, grown.trans (le_max_left _ _), announced'', fun _ => ⟨cursor, isCursor, by omega⟩⟩
  have same : outcome.state = mid := phase'.resolve_right advances
  rw [same]
  refine ⟨next', grown, announcedMid, ?_⟩
  rintro (succeeds | moved)
  · exact absurd (succeeded succeeds).2 advances
  · exact cursorMid.resolve_left moved

end AnnouncedBelow

/-- What is covered is announced, from the block after the first one on. -/
theorem coveredTo_iff : CoveredTo chain first monitor top ↔ AnnouncedBelow chain monitor.events
    (fun key => (monitor.watched.find? key).isSome = true) (first + 1) (top + 1) := by
  simp only [CoveredTo, AnnouncedBelow, Nat.succ_le_iff, Nat.lt_succ_iff]

theorem CoveredTo.mono (covered : CoveredTo chain first monitor top)
    (sameWatched : state.watched = monitor.watched) (more : monitor.events ⊆ state.events) :
    CoveredTo chain first state top := by
  intro number block above below here transfer mem isWatched
  rw [sameWatched] at isWatched
  exact (covered number block above below here transfer mem isWatched).mono more

end Scan

/-! ## Runs with a fixed set of watched keys -/

/-- A monitor, the first block it processed and the chain it last scanned. -/
structure Survey where
  node : Node
  origin : Option Nat
  scanned : Chain

namespace Survey

def perform (survey : Survey) (action : NodeAction) : Survey :=
  let after := survey.node.perform action
  match action with
  | .process block now _ world =>
    if (survey.node.processed block now world).result = .ok () ∨
        after.monitor.lastBlock ≠ survey.node.monitor.lastBlock then
      ⟨after, survey.origin.or after.monitor.lastBlock, survey.node.chain⟩
    else { survey with node := after }
  | _ => { survey with node := after }

/-- The watched set stays fixed, and the chain is replaced between calls only. -/
def Fixed : NodeAction → Prop
  | .process _ _ during _ => during = []
  | .watch _ => False
  | .unwatch _ _ => False
  | _ => True

/--
The canonical blocks the monitor has passed, up to the announced one, are those
it scanned.
-/
def Unreplaced (survey : Survey) : NodeAction → Prop
  | .process block _ _ _ => ∀ first ∈ survey.origin, ∀ cursor ∈ survey.node.monitor.lastBlock,
    ∀ number, first < number → number ≤ cursor → number < block.number →
      survey.node.chain.blockAt? number = survey.scanned.blockAt? number
  | _ => True

/-- Every transfer to a watched key above the first block and up to the cursor is announced. -/
def Complete (survey : Survey) (chain : Chain) : Prop :=
  ∀ first ∈ survey.origin, ∀ cursor ∈ survey.node.monitor.lastBlock,
    CoveredTo chain first survey.node.monitor cursor

end Survey

/-- The runs of one monitor over a fixed set of watched keys. -/
def survey : System Survey NodeAction where
  initial start := start.node.IsFresh ∧ DetectsAll start.node.monitor ∧ start.origin = none ∧
    start.scanned = start.node.chain
  step before action after := before.node.Valid action ∧ Survey.Fixed action ∧
    after = before.perform action

variable {world : World EvmError Chain}

namespace Survey

variable {before after : Survey}

/-- What a run keeps: the chain last scanned is covered up to the cursor. -/
structure Kept (survey : Survey) : Prop where
  origin : survey.origin = none ↔ survey.node.monitor.lastBlock = none
  detects : DetectsAll survey.node.monitor
  complete : survey.Complete survey.scanned

/-- A call that moved the cursor, or succeeded, covers the canonical chain up to it. -/
theorem Kept.covered {block : BlockNotification} {now : Time} (kept : before.Kept)
    (valid : before.node.Valid (.process block now [] world))
    (unreplaced : before.Unreplaced (.process block now [] world)) {first : Nat}
    (origin : before.origin = some first) (cursor : before.node.monitor.lastBlock = some lastNum)
    (moved : (before.node.processed block now world).result = .ok () ∨
      (before.node.processed block now world).state.lastBlock ≠ before.node.monitor.lastBlock) :
    ∃ top, (before.node.processed block now world).state.lastBlock = some top ∧
      CoveredTo before.node.chain first (before.node.processed block now world).state top := by
  have only : Solely (before.node.Serves []) before.node.chain :=
    fun other served => List.mem_singleton.mp served
  -- the blocks passed below the announced one are those scanned, so they are covered
  have passed : AnnouncedBelow before.node.chain before.node.monitor.events
      (fun key => (before.node.monitor.watched.find? key).isSome = true) (first + 1)
      (min (lastNum + 1) block.number) := by
    intro number scanned above below here
    rw [unreplaced first origin lastNum cursor number above (by omega) (by omega)] at here
    exact kept.complete first origin lastNum cursor number scanned above (by omega) here
  obtain ⟨next, _, announced, reached⟩ := passed.processBlock valid.1 (fun _ => id) only kept.detects
    (fun _ _ _ here => here) (by simp only [ChainMonitor.scanFrom, cursor]; exact le_rfl)
  obtain ⟨top, isTop, below⟩ := reached moved
  refine ⟨top, isTop, coveredTo_iff.mpr (announced.mono (List.Subset.refl _) (fun key isWatched => ?_) below)⟩
  have setup := (ChainMonitor.processBlock_effect valid.1 block now 0 before.node.monitor).setup
  rwa [← setup.watched]

theorem complete_of_origin {survey : Survey} {chain : Chain}
    (same : survey.origin = survey.node.monitor.lastBlock) : survey.Complete chain := by
  intro first isFirst cursor isCursor number block above below
  rw [same, Option.mem_def.mp isCursor] at isFirst
  cases isFirst
  omega

theorem Kept.process {block : BlockNotification} {now : Time} (kept : before.Kept)
    (valid : before.node.Valid (.process block now [] world))
    (unreplaced : before.Unreplaced (.process block now [] world)) :
    (before.perform (.process block now [] world)).Kept := by
  obtain ⟨setup, reports, found, isSent, _⟩ :=
    ChainMonitor.processBlock_effect valid.1 block now 0 before.node.monitor
  have detects : DetectsAll (before.node.processed block now world).state := by
    rw [DetectsAll, Node.processed, setup.config]
    exact kept.detects
  have more : before.node.monitor.events ⊆ (before.node.processed block now world).state.events := by
    rw [Node.processed, isSent, List.append_assoc]
    exact List.subset_append_left _ _
  simp only [perform]
  split
  next moved =>
    cases cursor : before.node.monitor.lastBlock with
    | none =>
      have fresh := kept.origin.mpr cursor
      refine ⟨by simp [fresh], detects, complete_of_origin ?_⟩
      simp [fresh]
    | some lastNum =>
      cases origin : before.origin with
      | none => simp [kept.origin.mp origin] at cursor
      | some first =>
        obtain ⟨top, cursor', covered⟩ := kept.covered valid unreplaced origin cursor moved
        have cursorAfter : (before.node.perform (.process block now [] world)).monitor.lastBlock =
            some top := cursor'
        refine ⟨by simp [cursorAfter], detects, ?_⟩
        intro first' isFirst cursor'' isCursor
        rw [cursorAfter] at isCursor
        cases isFirst
        cases isCursor
        exact covered
  next still =>
    have sameCursor := not_ne_iff.mp fun moved => still (.inr moved)
    refine ⟨kept.origin.trans (by rw [sameCursor]), detects, ?_⟩
    intro first isFirst cursor isCursor
    rw [sameCursor] at isCursor
    exact (kept.complete first isFirst cursor isCursor).mono setup.watched more

theorem kept_of_reachable (reached : (survey.restrict Unreplaced).Reachable after) : after.Kept := by
  refine reached.invariant (I := Kept) ?_ ?_
  · rintro start ⟨fresh, detects, origin, _⟩
    refine ⟨by rw [origin, fresh.lastBlock], detects, complete_of_origin ?_⟩
    rw [origin, fresh.lastBlock]
  rintro before action after _ kept ⟨⟨valid, fixed, rfl⟩, unreplaced⟩
  cases action with
  | replace chain => exact ⟨kept.origin, kept.detects, kept.complete⟩
  | process block now during world =>
    obtain rfl : during = [] := fixed
    exact kept.process valid unreplaced
  | confirm order now world =>
    obtain ⟨sameCursor, setup, more⟩ := Node.confirm_keeps valid
    refine ⟨kept.origin.trans (by rw [← sameCursor]; rfl), ?_, ?_⟩
    · have detects : DetectsAll (before.node.perform (.confirm order now world)).monitor := by
        rw [DetectsAll, setup.config]
        exact kept.detects
      exact detects
    intro first isFirst cursor isCursor
    have isCursor' : (before.node.perform (.confirm order now world)).monitor.lastBlock =
        some cursor := isCursor
    rw [sameCursor] at isCursor'
    exact (kept.complete first isFirst cursor isCursor').mono setup.watched more
  | watch watched => exact fixed.elim
  | unwatch address tokenContract => exact fixed.elim

end Survey

/--
In every run that meets the condition at each announced block, a call that
succeeds leaves every transfer to a watched key announced, from the first
processed block up to the cursor, on the chain that is canonical then.
-/
theorem detection_complete {before after : Survey}
    (reached : (survey.restrict Survey.Unreplaced).Reachable before) {block : BlockNotification}
    {now : Time} {during : List Chain} {world : World EvmError Chain}
    (step : (survey.restrict Survey.Unreplaced).step before (.process block now during world) after)
    (succeeds : (before.node.processed block now world).result = .ok ()) :
    after.Complete after.node.chain := by
  have kept := Survey.kept_of_reachable (reached.snoc step)
  obtain ⟨⟨_, fixed, rfl⟩, _⟩ := step
  obtain rfl : during = [] := fixed
  have scanned : (before.perform (.process block now [] world)).scanned =
      (before.perform (.process block now [] world)).node.chain := by
    simp [Survey.perform, succeeds, Node.perform]
  rw [← scanned]
  exact kept.complete

/-! ## A payment in a replaced block -/

/-- The chain the monitor scans first: two blocks without payments. -/
def quietChain : Chain :=
  ⟨[genesis, ⟨1, 101, 100, []⟩, ⟨2, 102, 101, []⟩], by decide, by decide, by decide, by decide, by decide⟩

def lateBlock : Block := ⟨2, 202, 101, [samplePayment 7 1 true]⟩

/-- The chain that replaces it from height 2 on: the payment and one block on top. -/
def lateChain : Chain :=
  ⟨[genesis, ⟨1, 101, 100, []⟩, lateBlock, ⟨3, 203, 202, []⟩],
    by decide, by decide, by decide, by decide, by decide⟩

/-- A monitor that watches address 5 and has processed nothing. -/
def sampleSurvey (chain : Chain) : Survey := ⟨{ sampleNode with chain, history := [chain] }, none, chain⟩

/-- The announcement of a block of the canonical chain. -/
def announce (number : Nat) (hash parentHash : B256) (chain : Chain) : NodeAction :=
  .process ⟨number, hash, parentHash⟩ 0 [] (answering chain)

theorem sampleSurvey_initial : survey.initial (sampleSurvey chain) :=
  ⟨⟨rfl, rfl, rfl, rfl, rfl⟩, ⟨rfl, rfl⟩, rfl, rfl⟩

theorem announce_step {before : Survey} {hash parentHash : B256} {chain : Chain}
    (isChain : before.node.chain = chain) (inHistory : chain ∈ before.node.history)
    (isBlock : (chain.blockAt? number).map Block.notification = some ⟨number, hash, parentHash⟩) :
    survey.step before (announce number hash parentHash chain)
      (before.perform (announce number hash parentHash chain)) := by
  obtain ⟨block, here, isNotification⟩ := Option.map_eq_some_iff.mp isBlock
  refine ⟨⟨answering_truthful (by simp [Node.Serves, isChain]), chain, ?_, block,
    Chain.mem_of_blockAt? here, isNotification.symm⟩, rfl, rfl⟩
  exact List.mem_append_left _ inHistory

theorem announce_unreplaced {before : Survey} {hash parentHash : B256} {chain : Chain}
    (same : ∀ below < number, before.node.chain.blockAt? below = before.scanned.blockAt? below) :
    before.Unreplaced (announce number hash parentHash chain) :=
  fun _ _ _ _ below _ _ under => same below under

/-- The monitor scans the first chain, and the second one replaces it. -/
def replacedSurvey : Survey :=
  [announce 0 100 0 quietChain, announce 1 101 100 quietChain, announce 2 102 101 quietChain,
    .replace lateChain].foldl Survey.perform (sampleSurvey quietChain)

theorem replacedSurvey_reachable : (survey.restrict Survey.Unreplaced).Reachable replacedSurvey := by
  have start : (survey.restrict Survey.Unreplaced).Reachable (sampleSurvey quietChain) :=
    System.Reachable.of_initial (sampleSurvey_initial quietChain)
  refine start.run (System.Path.run ?_)
  refine ⟨⟨announce_step rfl ?_ ?_, announce_unreplaced ?_⟩, ⟨announce_step rfl ?_ ?_, announce_unreplaced ?_⟩,
    ⟨announce_step rfl ?_ ?_, announce_unreplaced ?_⟩, ⟨⟨trivial, trivial, rfl⟩, trivial⟩, trivial⟩
  all_goals first | exact List.mem_singleton_self _ | decide +kernel

theorem replacedSurvey_history : lateChain ∈ replacedSurvey.node.history := by
  simp [replacedSurvey, Survey.perform, Node.perform]

/-- The block announced next replaces the last one scanned, and its payment is announced. -/
theorem detection_complete_unreplaced :
    let last := replacedSurvey.perform (announce 2 202 101 lateChain)
    replacedSurvey.origin = some 0 ∧ replacedSurvey.node.monitor.lastBlock = some 2 ∧
      last.node.monitor.lastBlock = some 2 ∧ last.node.monitor.events.length = 2 ∧
      last.Complete last.node.chain := by
  intro last
  refine ⟨by decide +kernel, by decide +kernel, by decide +kernel, by decide +kernel, ?_⟩
  exact detection_complete replacedSurvey_reachable ⟨announce_step rfl replacedSurvey_history (by decide),
    announce_unreplaced (by decide +kernel)⟩ (by decide +kernel)

/-- The block that carries the payment replaces one already scanned and is never read. -/
theorem missed_in_replaced_block :
    let third := replacedSurvey.perform (announce 3 203 202 lateChain)
    survey.Reachable third ∧
      (replacedSurvey.node.processed ⟨3, 203, 202⟩ 0 (answering lateChain)).result = .ok () ∧
      ¬ third.Complete third.node.chain := by
  intro third
  refine ⟨?_, by decide +kernel, ?_⟩
  · exact replacedSurvey_reachable.of_restrict.snoc (announce_step rfl replacedSurvey_history (by decide))
  intro complete
  have isOrigin : third.origin = some 0 := by decide +kernel
  have isCursor : third.node.monitor.lastBlock = some 3 := by decide +kernel
  obtain ⟨event, mem, _⟩ := complete 0 isOrigin 3 isCursor 2 lateBlock (by omega) (by omega)
    (show lateChain.blockAt? 2 = some lateBlock by decide)
    ⟨7, none, none, 6, 5, 1⟩ (by decide) (by decide +kernel)
  -- the only event is the report of the reorganisation
  have isReport : third.node.monitor.events = [.reorgDetected ⟨1, 2, 102, 203, 2, [], [7], true, 0⟩] := by
    decide +kernel
  rw [isReport] at mem
  simp at mem

end EthPayServer.Pipeline
