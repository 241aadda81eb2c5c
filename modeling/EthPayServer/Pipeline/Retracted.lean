import EthPayServer.Pipeline.Spared

/-!
# What a reorganisation removes

A report names the block its monitor believes the chain forked at, and its
application retracts every live payment at or above that block whose
transaction did not survive.  So once the events of a chain are applied, every
live payment was on a canonical chain during some call of `processBlock` since
which no fork was reported at or below it.  How deep the chain was replaced the
monitor cannot tell: it keeps the hash of one block.
-/

namespace EthPayServer.Pipeline

open Lib Data Consumer Evm

variable {delivery : Delivery} {db db' : Db}

/-! ## Where a row was mined -/

/-- A row after a write that did not file its transaction. -/
structure SameBlock (row row' : Payment) : Prop where
  chainId : row'.chainId = row.chainId
  txHash : row'.txHash = row.txHash
  blockNumber : row'.blockNumber = row.blockNumber
  live : row'.reorged = false → row.reorged = false

theorem SameBlock.refl (row : Payment) : SameBlock row row :=
  ⟨rfl, rfl, rfl, fun live => live⟩

variable {row row' : Payment}

def FiledIn (event : MonitorEvent) (row : Payment) : Prop :=
  ∃ detected, event = .paymentDetected detected ∧ row.chainId = .evm detected.chainId ∧
    row.txHash.val = hashText detected.txHash

variable {event : MonitorEvent}

theorem filedIn_of_describes (describes : Describes divide event db row) : FiledIn event row := by
  obtain ⟨detected, _, _, _, rfl, isDescribed, isRow⟩ := describes
  obtain ⟨_, _, _, rfl⟩ := described_ok isDescribed
  exact ⟨detected, rfl, (PaymentData.toRow_ok isRow).chainId, (PaymentData.toRow_ok isRow).txHash⟩

/-- Only the detection of its transaction changes the block of a row. -/
theorem block_of_write (write : Write divide event db db') (mem : row' ∈ db'.payments.rows) :
    (∃ row ∈ db.payments.rows, SameBlock row row') ∨ FiledIn event row' := by
  rcases write.kinds with ⟨_, row, describes, recorded⟩ | ⟨_, row, memRow, _, changes, recorded⟩ |
    ⟨_, _, written, _⟩ | same
  · rw [recorded.payments] at mem
    rcases List.mem_append.mp mem with old | new
    · exact .inl ⟨row', old, SameBlock.refl row'⟩
    · obtain rfl := List.mem_singleton.mp new
      exact .inr (filedIn_of_describes describes)
  · rw [recorded.payments] at mem
    obtain ⟨old, memOld, rfl⟩ := List.mem_map.mp mem
    by_cases here : old.id = row.id
    · obtain rfl := db.payments.eq_of_key memOld memRow here
      rw [if_pos rfl]
      cases changes with
      | absorbs proposed describes sameKey =>
        -- the conflict is on the chain and the transaction, so the old row is of the same one
        obtain ⟨detected, rfl, sameChain, sameHash⟩ := filedIn_of_describes describes
        simp only [Payment.txKey, Prod.mk.injEq] at sameKey
        exact .inr ⟨detected, rfl, sameKey.1.trans sameChain, sameKey.2.1 ▸ sameHash⟩
      | confirms => exact .inl ⟨old, memOld, rfl, rfl, rfl, id⟩
      | retracts => exact .inl ⟨old, memOld, rfl, rfl, rfl, by simp [Payment.retract]⟩
    · rw [if_neg here]
      exact .inl ⟨old, memOld, SameBlock.refl old⟩
  · rw [written.payments] at mem
    exact .inl ⟨row', mem, SameBlock.refl row'⟩
  · rw [same.payments] at mem
    exact .inl ⟨row', mem, SameBlock.refl row'⟩

/-- What is live after a report was applied to its end is below the fork or survived. -/
theorem survived_of_live {report : ReorgDetected} {world : World EventConsumerError Time}
    (verifiable : report.survivorsVerifiable = true)
    (done : (handleEvent divide delivery (.reorgDetected report) world 0 db).result = .ok ())
    (mem : row ∈ (handleEvent divide delivery (.reorgDetected report) world 0 db).state.payments.rows)
    (isChain : row.chainId = .evm report.chainId) (live : row.reorged = false) {number : Int}
    (isNumber : number ∈ row.blockNumber) (above : asI64 report.forkBlock ≤ number) :
    survived report row = true := by
  change (handleReorgDetected delivery report world 0 db).result = .ok () at done
  change row ∈ (handleReorgDetected delivery report world 0 db).state.payments.rows at mem
  rcases handleReorgDetected_cases delivery verifiable world db with ⟨e, _, outcome⟩ | ⟨ending, _⟩
  · rw [outcome] at done
    cases done
  cases ending with
  | inside _ _ _ _ _ _ _ _ ends _ _ _ =>
    rw [ends] at done
    cases done
  | whole db' ends _ _ state =>
    rw [ends, state.payments] at mem
    obtain ⟨old, memOld, rfl⟩ := List.mem_map.mp mem
    by_cases isMarked : old.id ∈ (retractionPlan delivery report db).flatMap groupIds
    · simp [isMarked, Payment.retract] at live
    simp only [List.nil_append, isMarked, if_false] at isChain live isNumber ⊢
    rw [mem_planIds, mem_retractionIds memOld, mem_retractions] at isMarked
    by_contra lost
    refine isMarked ⟨memOld, isChain, ?_, live, by simpa using lost⟩
    rw [Option.mem_def.mp isNumber]
    simpa using above

/-! ## The calls of a run -/

/-- A call of `process_block`: the monitor and the chain it starts on, and what it is answered. -/
structure Call where
  node : Node
  block : BlockNotification
  now : Time
  during : List Chain
  world : World EvmError Chain

namespace Call

/-- The monitor and the chain when the call is over. -/
def after (call : Call) : Node :=
  call.node.perform (.process call.block call.now call.during call.world)

def Succeeds (call : Call) : Prop :=
  (call.node.processed call.block call.now call.world).result = .ok ()

def sent (call : Call) : List MonitorEvent := call.node.monitor.sent call.after.monitor

/-- A chain that was canonical during the call has the transaction, up to the announced block. -/
def Includes (call : Call) (txHash : B256) : Prop :=
  ∃ chain, call.node.Serves call.during chain ∧ chain.Includes call.block.number txHash

/--
The row's transaction was on a chain during the call, and none of the events
after the call reports a fork at or below the row's block.
-/
def Vouches (call : Call) (events : List MonitorEvent) (row : Payment) : Prop :=
  (∃ txHash, parseHash row.txHash.val = some txHash ∧ call.Includes txHash) ∧
    ∀ report, .reorgDetected report ∈ events.drop call.after.monitor.events.length →
      ∀ number ∈ row.blockNumber, number < asI64 report.forkBlock

/--
The call can see that the block the monitor processed last is no longer
canonical: the announced block follows it and has another parent, or the chain
has another block in its place.
-/
def SeesReplaced (call : Call) (chain : Chain) (lastNum : Nat) : Prop :=
  call.node.monitor.lastBlock = some lastNum ∧ ∃ lastHash ∈ call.node.monitor.lastBlockHash,
    if call.block.number = lastNum + 1 then call.block.parentHash ≠ lastHash
    else ∃ hash ∈ chain.hashAt? lastNum, hash ≠ lastHash

end Call

/-- The call among the steps of a run. -/
def callOf (chainId : Nat) : Platform × PlatformAction × Platform → Option Call
  | (before, .node id (.process block now during world), _) =>
    if id = chainId then some ⟨before.nodes chainId, block, now, during, world⟩ else none
  | _ => none

/-- The calls a chain's monitor made in a run, oldest first. -/
def calls (chainId : Nat) (steps : List (Platform × PlatformAction × Platform)) : List Call :=
  steps.filterMap (callOf chainId)

def Watching (platform : Platform) : PlatformAction → Prop
  | .node chainId (.process _ _ _ _) => (platform.nodes chainId).monitor.watched.rows ≠ []
  | _ => True

namespace Platform

def CaughtUp (platform : Platform) (chainId : Nat) : Prop :=
  (platform.nodes chainId).monitor.events.length ≤ platform.cursors chainId

end Platform

/-! ## What the events of a chain come from -/

theorem includes_of_sound {served : Chain → Prop} {block : BlockNotification} {monitor : ChainMonitor}
    {now : Time} {event : PaymentDetected} (sound : ChainMonitor.Sound served block monitor now event) :
    ∃ chain, served chain ∧ chain.Includes block.number event.txHash := by
  obtain ⟨chain, number, scanned, _, isServed, _, high, here, _, detected⟩ := sound
  refine ⟨chain, isServed, number, scanned, high, here, ?_⟩
  rcases detected with ⟨tx, memTx, _, _, _, _, _, rfl⟩ | ⟨txHash, _, _, _, memLog, _, _, _, _, _, _, rfl⟩
  · exact ⟨tx, memTx, rfl⟩
  · obtain ⟨tx, memTx, isHash, _⟩ := ChainMonitor.mem_logs.mp (List.fst_mem_of_mem_zipIdx memLog)
    exact ⟨tx, memTx, isHash⟩

/-- The payments and the reports of a chain were sent by calls that saw their transactions. -/
structure Sourced (platform : Platform) (chainId : Nat) (made : List Call) : Prop where
  cursor : platform.cursors chainId ≤ (platform.nodes chainId).monitor.events.length
  detected : ∀ i event, (platform.nodes chainId).monitor.events[i]? = some (.paymentDetected event) →
    ∃ call ∈ made, i < call.after.monitor.events.length ∧ call.Includes event.txHash
  reports : ∀ i report, (platform.nodes chainId).monitor.events[i]? = some (.reorgDetected report) →
    report.survivorsVerifiable = true ∧ ∃ call ∈ made, i < call.after.monitor.events.length ∧
      ∀ txHash ∈ report.survivedTxHashes, call.Includes txHash

variable {call : Call} {events : List MonitorEvent} {start : Platform}
   {steps : List (Platform × PlatformAction × Platform)}

section Run

variable {before after : Platform} {action : PlatformAction} {chainId : Nat}
  {made : List Call}

theorem Sourced.of_initial (start : before.IsInitial) : Sourced before chainId [] := by
  refine ⟨?_, ?_, ?_⟩ <;> simp [start.cursors, (start.fresh chainId).events]

theorem Sourced.of_same (sourced : Sourced before chainId made) (later : List Call)
    (same : after.nodes chainId = before.nodes chainId)
    (cursor : after.cursors chainId ≤ (before.nodes chainId).monitor.events.length) :
    Sourced after chainId (made ++ later) := by
  refine ⟨by rwa [same], ?_, ?_⟩
  · intro i event isEvent
    rw [same] at isEvent
    obtain ⟨call, mem, rest⟩ := sourced.detected i event isEvent
    exact ⟨call, List.mem_append_left _ mem, rest⟩
  · intro i report isReport
    rw [same] at isReport
    obtain ⟨verifiable, call, mem, rest⟩ := sourced.reports i report isReport
    exact ⟨verifiable, call, List.mem_append_left _ mem, rest⟩

theorem cursors_of_step (step : (platform divide).step before action after) (chainId : Nat) :
    after.cursors chainId = before.cursors chainId ∨
      ∃ delivery world event, action = .apply chainId delivery world true ∧
        before.next? chainId = some event ∧
        (before.handled divide delivery event world).result = .ok () ∧
        after.cursors chainId = before.cursors chainId + 1 := by
  obtain ⟨valid, rfl⟩ := step
  cases action with
  | node chainId' nodeAction => exact .inl rfl
  | admin action => exact .inl rfl
  | apply chainId' delivery world commits =>
    cases isNext : before.next? chainId' with
    | none => exact .inl (by simp [Platform.perform, isNext])
    | some event =>
      by_cases done : (before.handled divide delivery event world).result = .ok ()
      · cases commits with
        | false => exact .inl (by simp [Platform.perform, isNext, done])
        | true =>
          by_cases here : chainId = chainId'
          · subst here
            exact .inr ⟨delivery, world, event, rfl, isNext, done,
              by simp [Platform.perform, isNext, done]⟩
          · exact .inl (by simp [Platform.perform, isNext, done, here])
      · exact .inl (by simp [Platform.perform, isNext, done])

theorem cursor_le_of_step (step : (platform divide).step before action after)
    (cursor : before.cursors chainId ≤ (before.nodes chainId).monitor.events.length) :
    after.cursors chainId ≤ (before.nodes chainId).monitor.events.length := by
  rcases cursors_of_step step chainId with same | ⟨_, _, event, _, isNext, _, moved⟩
  · rwa [same]
  · rw [moved]
    exact (List.getElem?_eq_some_iff.mp isNext).1

theorem Sourced.step (sourced : Sourced before chainId made)
    (step : ((platform divide).restrict Watching).step before action after) :
    Sourced after chainId (made ++ (callOf chainId (before, action, after)).toList) := by
  obtain ⟨step, watching⟩ := step
  have cursor := cursor_le_of_step step sourced.cursor
  rcases Platform.node_of_step step chainId with same | ⟨nodeAction, rfl, valid, isNode, _⟩
  · exact sourced.of_same _ same cursor
  obtain ⟨sent, isSent, sentBy⟩ := (Node.changed_of_valid valid).events
  rw [← isNode] at isSent
  have isOld : ∀ {i event}, (after.nodes chainId).monitor.events[i]? = some event →
      (before.nodes chainId).monitor.events[i]? = some event ∨
        event ∈ sent ∧ i < (after.nodes chainId).monitor.events.length := by
    intro i event isEvent
    have low := (List.getElem?_eq_some_iff.mp isEvent).1
    rw [isSent, List.getElem?_append] at isEvent
    split at isEvent
    · exact .inl isEvent
    · exact .inr ⟨List.mem_of_getElem? isEvent, low⟩
  -- an event that is new was sent by the call this step is
  refine ⟨?_, ?_, ?_⟩
  · rw [isSent, List.length_append]
    omega
  · intro i event isEvent
    rcases isOld isEvent with old | ⟨new, low⟩
    · obtain ⟨call, mem, rest⟩ := sourced.detected i event old
      exact ⟨call, List.mem_append_left _ mem, rest⟩
    · obtain ⟨block, now, during, world, rfl, sound⟩ := sentBy.detected event new
      refine ⟨⟨before.nodes chainId, block, now, during, world⟩, by simp [callOf], ?_,
        includes_of_sound sound⟩
      rwa [Call.after, ← isNode]
  intro i report isReport
  rcases isOld isReport with old | ⟨new, low⟩
  · obtain ⟨verifiable, call, mem, rest⟩ := sourced.reports i report old
    exact ⟨verifiable, call, List.mem_append_left _ mem, rest⟩
  obtain ⟨block, now, during, world, rfl, isReport⟩ := sentBy.reorg report new
  have something : (before.nodes chainId).monitor.watched.rows ≠ [] := watching
  refine ⟨by simp [isReport.verifiable, something],
    ⟨before.nodes chainId, block, now, during, world⟩, by simp [callOf], ?_, isReport.survived⟩
  rwa [Call.after, ← isNode]

/-! ## The live rows -/

/-- Every live row of the chain is vouched for by a call, as far as the events are applied. -/
def Vouched (chainId : Nat) (made : List Call) (events : List MonitorEvent) (db : Db) : Prop :=
  ∀ row ∈ db.payments.rows, row.chainId = .evm chainId → row.reorged = false →
    ∃ call ∈ made, call.Vouches events row

theorem Call.Vouches.of_sameBlock (vouches : call.Vouches events row) (same : SameBlock row row') :
    call.Vouches events row' := by
  unfold Vouches
  rw [same.txHash, same.blockNumber]
  exact vouches

/-- A call that ended when no more events were applied vouches for what it saw. -/
theorem Call.vouches_of_includes {txHash : B256} (isHash : parseHash row.txHash.val = some txHash)
    (includes : call.Includes txHash) (early : events.length ≤ call.after.monitor.events.length) :
    call.Vouches events row := by
  refine ⟨⟨txHash, isHash, includes⟩, ?_⟩
  rw [List.drop_eq_nil_of_le early]
  intro report mem
  cases mem

theorem Call.Vouches.snoc (vouches : call.Vouches events row)
    (below : ∀ report, event = .reorgDetected report →
      ∀ number ∈ row.blockNumber, number < asI64 report.forkBlock) : call.Vouches (events ++ [event]) row := by
  refine ⟨vouches.1, fun report mem => ?_⟩
  rw [List.drop_append] at mem
  rcases List.mem_append.mp mem with earlier | last
  · exact vouches.2 report earlier
  · exact below report (List.mem_singleton.mp (List.mem_of_mem_drop last)).symm

/-- The events of a chain that are applied. -/
abbrev appliedEvents (platform : Platform) (chainId : Nat) : List MonitorEvent :=
  (platform.nodes chainId).monitor.events.take (platform.cursors chainId)

section Rows

variable (sourced : Sourced before chainId made) (grounded : before.Grounded)
include sourced grounded

theorem Vouched.write {chainId' : Nat}
    (isNext : before.next? chainId' = some event) (write : Write divide event db db')
    (vouched : Vouched chainId made (appliedEvents before chainId) db) :
    Vouched chainId made (appliedEvents before chainId) db' := by
  intro row' mem isChain live
  rcases block_of_write write mem with ⟨row, memRow, same⟩ | ⟨detected, rfl, onChain, isHash⟩
  · obtain ⟨call, memCall, vouches⟩ := vouched row memRow (same.chainId ▸ isChain) (same.live live)
    exact ⟨call, memCall, vouches.of_sameBlock same⟩
  obtain ⟨here, _⟩ := grounded.detected chainId' detected (Platform.mem_of_next? isNext)
  rw [onChain, here, ChainId.evm.injEq] at isChain
  subst isChain
  obtain ⟨call, memCall, low, includes⟩ := sourced.detected _ detected isNext
  refine ⟨call, memCall, @Call.vouches_of_includes row' call _ detected.txHash ?_ includes ?_⟩
  · rw [isHash, parseHash_hashText]
  · exact (List.length_take_le _ _).trans low.le

/-- Every step keeps the rows vouched for, as far as the events were applied before it. -/
theorem Vouched.db_step (step : (platform divide).step before action after)
    (vouched : Vouched chainId made (appliedEvents before chainId) before.db) :
    Vouched chainId made (appliedEvents before chainId) after.db := by
  obtain ⟨valid, rfl⟩ := step
  cases action with
  | node chainId' nodeAction => exact vouched
  | admin action =>
    refine action.perform_preserves (I := Vouched chainId made _) valid ?_ vouched
    intro db db' write vouched
    unfold Vouched
    rw [write.samePayments]
    exact vouched
  | apply chainId' delivery world commits =>
    cases isNext : before.next? chainId' with
    | none =>
      simp only [Platform.perform, isNext]
      exact vouched
    | some event =>
      rw [Platform.db_perform_apply before delivery world commits isNext]
      have writes : Proc.Writes (Write divide event) (handleEvent divide delivery event) :=
        handleEvent_writes delivery event
      exact writes.preserves (I := Vouched chainId made _)
        (fun write => Vouched.write sourced grounded isNext write) world 0 vouched

/-- A row that is live when an event was applied to its end is vouched for beyond that event. -/
theorem Vouched.beyond (isNext : before.next? chainId = some event) {world : World EventConsumerError Time}
    (done : (before.handled divide delivery event world).result = .ok ())
    (vouched : Vouched chainId made (appliedEvents before chainId)
      (before.handled divide delivery event world).state) :
    Vouched chainId made
      ((before.nodes chainId).monitor.events.take (before.cursors chainId + 1))
      (before.handled divide delivery event world).state := by
  have isNext' : (before.nodes chainId).monitor.events[before.cursors chainId]? = some event := isNext
  intro row mem isChain live
  obtain ⟨call, memCall, vouches⟩ := vouched row mem isChain live
  by_cases hit : ∃ report, event = .reorgDetected report ∧
      ∃ number ∈ row.blockNumber, asI64 report.forkBlock ≤ number
  · -- the report reached down to the row, so the row's transaction is among its survivors
    obtain ⟨report, rfl, number, isNumber, above⟩ := hit
    obtain ⟨verifiable, source, memSource, low, includes⟩ := sourced.reports _ report isNext'
    have onChain : row.chainId = .evm report.chainId := by
      rw [grounded.reorgs chainId report (Platform.mem_of_next? isNext)]
      exact isChain
    have found := survived_of_live verifiable done mem onChain live isNumber above
    obtain ⟨txHash, listed, isHash⟩ := List.any_eq_true.mp found
    refine ⟨source, memSource, Call.vouches_of_includes (of_decide_eq_true isHash)
      (includes txHash listed) ?_⟩
    exact (List.length_take_le _ _).trans low
  refine ⟨call, memCall, ?_⟩
  rw [List.take_add_one, isNext']
  refine vouches.snoc fun report isReport number isNumber => ?_
  by_contra high
  exact hit ⟨report, isReport, number, isNumber, not_lt.mp high⟩

theorem Vouched.step (step : (platform divide).step before action after)
    (vouched : Vouched chainId made (appliedEvents before chainId) before.db) :
    Vouched chainId made (appliedEvents after chainId) after.db := by
  have kept := Vouched.db_step sourced grounded step vouched
  rcases cursors_of_step step chainId with sameCursor | ⟨delivery, world, event, rfl, isNext, done, moved⟩
  · have samePart : appliedEvents after chainId = appliedEvents before chainId := by
      rw [appliedEvents, appliedEvents, sameCursor]
      rcases Platform.node_of_step step chainId with same | ⟨nodeAction, _, valid, isNode, _⟩
      · rw [same]
      · obtain ⟨sent, isSent, _⟩ := (Node.changed_of_valid valid).events
        rw [isNode, isSent, List.take_append_of_le_length sourced.cursor]
    rw [samePart]
    exact kept
  · obtain ⟨_, rfl⟩ := step
    rw [appliedEvents, moved, Platform.nodes_perform_apply]
    rw [Platform.db_perform_apply before delivery world true isNext] at kept ⊢
    exact Vouched.beyond sourced grounded isNext done kept

end Rows

/-! ## Every run -/

theorem calls_snoc (steps : List (Platform × PlatformAction × Platform))
    (taken : Platform × PlatformAction × Platform) :
    calls chainId (steps ++ [taken]) = calls chainId steps ++ (callOf chainId taken).toList := by
  cases isCall : callOf chainId taken <;> simp [calls, isCall]

theorem Vouched.more (vouched : Vouched chainId made events db) (later : List Call) :
    Vouched chainId (made ++ later) events db := by
  intro row mem isChain live
  obtain ⟨call, memCall, vouches⟩ := vouched row mem isChain live
  exact ⟨call, List.mem_append_left later memCall, vouches⟩

theorem sourced_and_vouched (isStart : start.IsInitial)
    (run : ((platform divide).restrict Watching).Trace start steps after) (chainId : Nat) :
    Sourced after chainId (calls chainId steps) ∧ Vouched chainId (calls chainId steps)
      ((after.nodes chainId).monitor.events.take (after.cursors chainId)) after.db := by
  induction run with
  | nil =>
    refine ⟨Sourced.of_initial isStart, ?_⟩
    intro row mem
    rw [isStart.db] at mem
    cases mem
  | snoc run step ih =>
    obtain ⟨sourced, vouched⟩ := ih
    have grounded := Platform.grounded ⟨start, isStart, run.run⟩
    rw [calls_snoc]
    exact ⟨sourced.step step, (Vouched.step sourced grounded step.1 vouched).more _⟩

end Run

/-- A successful call that sees its last block replaced reports a fork there or at the new head. -/
theorem Call.reports_of_seesReplaced
    (valid : call.node.Valid (.process call.block call.now call.during call.world)) (succeeds : call.Succeeds)
    {chain : Chain} (only : Solely (call.node.Serves call.during) chain) {lastNum : Nat}
    (sees : call.SeesReplaced chain lastNum) :
    ∃ report, .reorgDetected report ∈ call.sent ∧
      report.forkBlock = min lastNum call.block.number := by
  obtain ⟨isNum, lastHash, isHash, replaced⟩ := sees
  have noticed : ChainMonitor.noticedFork chain call.node.monitor call.block =
      some (min lastNum call.block.number) := by
    unfold ChainMonitor.noticedFork
    rw [isNum, Option.mem_def.mp isHash]
    by_cases successor : call.block.number = lastNum + 1
    · simp only [successor, if_true] at replaced ⊢
      simp [replaced]
    · simp only [successor, if_false] at replaced ⊢
      obtain ⟨hash, here, other⟩ := replaced
      simp [Option.mem_def.mp here, other]
  obtain ⟨reported, mid, _, first, second, _, succeeded, _⟩ :=
    ChainMonitor.processBlock_phases valid.1 call.block call.now 0 call.node.monitor
  obtain ⟨report, _⟩ := succeeded succeeds
  obtain ⟨found, firstFound⟩ := first.announced
  obtain ⟨more, secondFound⟩ := second.announced
  cases report with
  | quiet unnoticed =>
    rw [unnoticed chain only] at noticed
    cases noticed
  | reorg report isReport =>
    refine ⟨report, ?_, ?_⟩
    · have isEvents : call.after.monitor.events = _ := secondFound.events
      rw [firstFound.events] at isEvents
      rw [sent, ChainMonitor.sent, isEvents]
      simp [ChainMonitor.send]
    · rw [isReport.noticed chain only, Option.some.injEq] at noticed
      exact noticed

theorem valid_of_mem_calls {after : Platform} {chainId : Nat}
    (run : ((platform divide).restrict Watching).Trace start steps after) (mem : call ∈ calls chainId steps) :
    call.node.Valid (.process call.block call.now call.during call.world) := by
  obtain ⟨⟨before, action, next⟩, memStep, isCall⟩ := List.mem_filterMap.mp mem
  have each : ∀ {s a t}, ((platform divide).restrict Watching).step s a t → s.Valid a :=
    fun step => step.1.1
  have valid : before.Valid action :=
    run.forall_steps (P := fun before action _ => before.Valid action) each _ memStep
  unfold callOf at isCall
  split at isCall
  next block now during world _ same =>
    cases same
    split at isCall
    next here =>
      subst here
      cases isCall
      exact valid.1
    · cases isCall
  · cases isCall

/--
In every run in which the monitors watch something whenever they process a
block: a successful call that sees its last block replaced, on a chain that is
not replaced during the call, reports a fork at the lower of that block and the
announced one; and whenever the events of a chain are all applied, every live
row of the chain has its transaction on a chain that was canonical during some
call since which no fork was reported at or below the row's block.
-/
theorem retraction_complete (divide : Division) {start after : Platform}
    {steps : List (Platform × PlatformAction × Platform)} (isStart : start.IsInitial)
    (run : ((platform divide).restrict Watching).Trace start steps after) (chainId : Nat) :
    (∀ call ∈ calls chainId steps, call.Succeeds →
      ∀ chain, Solely (call.node.Serves call.during) chain →
        ∀ lastNum, call.SeesReplaced chain lastNum →
          ∃ report, .reorgDetected report ∈ call.sent ∧
            report.forkBlock = min lastNum call.block.number) ∧
    (after.CaughtUp chainId → ∀ row ∈ after.db.payments.rows, row.chainId = .evm chainId →
      row.reorged = false → ∃ call ∈ calls chainId steps,
        call.Vouches (after.nodes chainId).monitor.events row) := by
  refine ⟨fun call mem succeeds chain only lastNum sees => ?_, fun caughtUp => ?_⟩
  · exact Call.reports_of_seesReplaced (valid_of_mem_calls run mem) succeeds only sees
  · obtain ⟨_, vouched⟩ := sourced_and_vouched isStart run chainId
    rw [List.take_of_length_le caughtUp] at vouched
    exact vouched

/-! ## A fork below the guess -/

/-- Three blocks, the payment in the first. -/
def deepChain : Chain :=
  ⟨[genesis, minedBlock, ⟨2, 102, 101, []⟩, ⟨3, 103, 102, []⟩], by decide, by decide, by decide, by decide,
    by decide⟩

/-- Another branch from the first block on, without the payment. -/
def otherBranch : Chain :=
  ⟨[genesis, ⟨1, 201, 100, []⟩, ⟨2, 202, 201, []⟩, ⟨3, 203, 202, []⟩], by decide, by decide, by decide,
    by decide, by decide⟩

/-- The first block is scanned and the payment in it applied. -/
def deepPlatform : Platform :=
  ((quotedPlatform tokenOption ⟨5, 1, none, some 9, 0⟩ deepChain).perform (· / ·)
    (scan deepChain minedBlock)).perform (· / ·) (applyNext 1)

/-- The other two blocks are scanned, and the whole branch is replaced. -/
def forkedPlatform : Platform :=
  ((deepPlatform.perform (· / ·) (scan deepChain ⟨2, 102, 101, []⟩)).perform (· / ·)
    (scan deepChain ⟨3, 103, 102, []⟩)).perform (· / ·) (.node 1 (.replace otherBranch))

/-- The second block of the new branch is announced: a block behind the one processed last. -/
def announceSecond : PlatformAction := scan otherBranch ⟨2, 202, 201, []⟩

def backwardCall : Call :=
  ⟨forkedPlatform.nodes 1, (⟨2, 202, 201, []⟩ : Block).notification, 0, [], answering otherBranch⟩

def calledPlatform : Platform := forkedPlatform.perform (· / ·) announceSecond

def guessedPlatform : Platform := calledPlatform.perform (· / ·) (applyNext 2)

theorem watching_of_other {platform : Platform} {action : PlatformAction}
    (other : ∀ chainId block now during world, action ≠ .node chainId (.process block now during world)) :
    Watching platform action := by
  unfold Watching
  split
  next chainId block now during world => exact absurd rfl (other chainId block now during world)
  · trivial

theorem watching_scan {platform : Platform} {chain : Chain} {block : Block}
    (something : (platform.nodes 1).monitor.watched.rows ≠ []) :
    Watching platform (scan chain block) :=
  something

theorem deepPlatform_reachable : ((platform (· / ·)).restrict Watching).Reachable deepPlatform := by
  exact appliedPlatform_reachable deepChain tokenOption_quoted (by decide +kernel)
    (watching_of_other (by simp)) (watching_of_other (by simp)) (by decide +kernel) (by decide)
    (watching_scan (by decide +kernel)) trivial

theorem chain_scan (platform : Platform) (chain : Chain) (block : Block) :
    ((platform.perform (· / ·) (scan chain block)).nodes 1).chain = (platform.nodes 1).chain := by
  simp [Platform.perform, scan, Node.perform]

theorem history_scan (platform : Platform) (chain : Chain) (block : Block) :
    ((platform.perform (· / ·) (scan chain block)).nodes 1).history = (platform.nodes 1).history := by
  simp [Platform.perform, scan, Node.perform]

theorem forkedPlatform_reachable :
    ((platform (· / ·)).restrict Watching).Reachable forkedPlatform := by
  have known : deepChain ∈ (deepPlatform.nodes 1).history := by
    rw [deepPlatform, applyNext, Platform.nodes_perform_apply, history_scan]
    exact List.mem_singleton_self _
  have isChain : (deepPlatform.nodes 1).chain = deepChain := by
    rw [deepPlatform, applyNext, Platform.nodes_perform_apply, chain_scan]
    rfl
  have second := Platform.reachable_perform deepPlatform_reachable (scan deepChain ⟨2, 102, 101, []⟩)
    (scan_valid isChain known (by decide)) (watching_scan (by decide +kernel))
  have third := Platform.reachable_perform second (scan deepChain ⟨3, 103, 102, []⟩)
    (scan_valid ((chain_scan _ _ _).trans isChain) (by rwa [history_scan]) (by decide))
    (watching_scan (by decide +kernel))
  exact Platform.reachable_perform third (.node 1 (.replace otherBranch)) ⟨trivial, by simp⟩ trivial

theorem node_replace (platform : Platform) (chain : Chain) :
    (platform.perform (· / ·) (.node 1 (.replace chain))).nodes 1 =
      (platform.nodes 1).perform (.replace chain) := by
  simp [Platform.perform]

theorem forkedPlatform_node : (forkedPlatform.nodes 1).chain = otherBranch ∧
    otherBranch ∈ (forkedPlatform.nodes 1).history := by
  rw [forkedPlatform, node_replace]
  exact ⟨rfl, List.mem_append_right _ (List.mem_singleton_self _)⟩

/-- What the sample run computes, and the row of the payment, live after the report is applied. -/
theorem guessed_computes : (forkedPlatform.nodes 1).monitor.watched.rows ≠ [] ∧
    2 ∉ deepPlatform.db.payments.keys ∧ guessedPlatform.CaughtUp 1 ∧ backwardCall.Succeeds ∧
    (backwardCall.node.monitor.lastBlock = some 3 ∧ 103 ∈ backwardCall.node.monitor.lastBlockHash) ∧
    ∃ row ∈ guessedPlatform.db.payments.rows, row.chainId = .evm 1 ∧ row.reorged = false ∧
      ∃ cursor ∈ (guessedPlatform.nodes 1).monitor.lastBlock, ∃ number ∈ row.blockNumber, number ≤ cursor := by
  unfold Platform.CaughtUp Call.Succeeds
  decide +kernel

theorem announceSecond_step :
    ((platform (· / ·)).restrict Watching).step forkedPlatform announceSecond calledPlatform :=
  ⟨⟨scan_valid forkedPlatform_node.1 forkedPlatform_node.2 (by decide), rfl⟩, guessed_computes.1⟩

theorem applyReport_step :
    ((platform (· / ·)).restrict Watching).step calledPlatform (applyNext 2) guessedPlatform :=
  ⟨⟨guessed_computes.2.1, rfl⟩, trivial⟩

theorem backwardCall_solely : Solely (backwardCall.node.Serves backwardCall.during) otherBranch := by
  intro chain served
  rw [Node.Serves] at served
  exact (List.mem_singleton.mp served).trans forkedPlatform_node.1

theorem backwardCall_sees : backwardCall.SeesReplaced otherBranch 3 := by
  obtain ⟨-, -, -, -, ⟨isLast, isHash⟩, -⟩ := guessed_computes
  refine ⟨isLast, 103, isHash, ?_⟩
  rw [if_neg (show ¬ backwardCall.block.number = 3 + 1 by decide)]
  exact ⟨203, rfl, by decide⟩

theorem callOf_announceSecond :
    callOf 1 (forkedPlatform, announceSecond, calledPlatform) = some backwardCall := by
  simp only [callOf, announceSecond, scan, if_true, backwardCall]

/-- The row of the payment is live and its transaction was on the chain when it was announced. -/
theorem retraction_complete_guessed :
    ∃ row ∈ guessedPlatform.db.payments.rows, row.reorged = false ∧
    ∃ start steps, start.IsInitial ∧
      ((platform (· / ·)).restrict Watching).Trace start steps guessedPlatform ∧
      backwardCall ∈ calls 1 steps ∧
      (∃ report, .reorgDetected report ∈ backwardCall.sent ∧ report.forkBlock = 2) ∧
      ∃ call ∈ calls 1 steps, call.Vouches (guessedPlatform.nodes 1).monitor.events row := by
  obtain ⟨-, -, caughtUp, succeeds, -, row, mem, isChain, live, -⟩ := guessed_computes
  obtain ⟨start, steps, isStart, before⟩ := forkedPlatform_reachable.trace
  have run := (before.snoc announceSecond_step).snoc applyReport_step
  have made : backwardCall ∈ calls 1 (steps ++ [(forkedPlatform, announceSecond, calledPlatform)] ++
      [(calledPlatform, applyNext 2, guessedPlatform)]) := by
    rw [calls_snoc, calls_snoc, callOf_announceSecond]
    exact List.mem_append_left _ (List.mem_append_right _ (List.mem_singleton_self _))
  obtain ⟨reports, vouched⟩ := retraction_complete (· / ·) isStart run 1
  refine ⟨row, mem, live, start, _, isStart, run, made, ?_, vouched ?_ row mem isChain live⟩
  · exact reports backwardCall made succeeds otherBranch backwardCall_solely 3 backwardCall_sees
  · exact caughtUp

/--
No live row of the chain at or below the monitor's cursor has a transaction that
the chain does not have up to the block.
-/
def RetractedUpTo (platform : Platform) (chainId upTo : Nat) : Prop :=
  ∀ row ∈ platform.db.payments.rows, row.chainId = .evm chainId → row.reorged = false →
    (∃ cursor ∈ (platform.nodes chainId).monitor.lastBlock, ∃ number ∈ row.blockNumber, number ≤ cursor) →
    ∃ txHash, parseHash row.txHash.val = some txHash ∧
      (platform.nodes chainId).chain.Includes upTo txHash

/-- The monitor guesses the fork at the announced block, and the payment below it stays. -/
theorem payment_below_guess_stays :
    ((platform (· / ·)).restrict Watching).Reachable guessedPlatform ∧ backwardCall.Succeeds ∧
      guessedPlatform.CaughtUp 1 ∧ ¬ RetractedUpTo guessedPlatform 1 2 := by
  obtain ⟨-, -, caughtUp, succeeds, -, row, mem, isChain, live, scanned⟩ := guessed_computes
  refine ⟨(forkedPlatform_reachable.snoc announceSecond_step).snoc applyReport_step, succeeds, caughtUp,
    fun complete => ?_⟩
  obtain ⟨txHash, _, number, block, _, here, tx, memTx, _⟩ := complete row mem isChain live scanned
  have isBranch : (guessedPlatform.nodes 1).chain = otherBranch := by
    rw [guessedPlatform, applyNext, Platform.nodes_perform_apply, calledPlatform, announceSecond,
      chain_scan, forkedPlatform_node.1]
  rw [isBranch] at here
  have empty : ∀ block ∈ otherBranch.blocks, block.transactions = [] := by decide
  rw [empty block (Chain.mem_of_blockAt? here)] at memTx
  cases memTx

end EthPayServer.Pipeline
