import EthPayServer.Pipeline.Moved
import EthPayServer.Pipeline.Remined

/-!
# Counting a transfer once

A token payment is filed under its transaction and the index of its log in the
block.  Mined again in another block the same log may have another index, and
its row survives the reorganisation by its transaction alone, so the log is
filed a second time beside the first row.
-/

namespace EthPayServer.Pipeline

open Lib Data Consumer Evm

def Locates (chains : List Chain) (event : PaymentDetected) (position : Nat) : Prop :=
  event.isNative = false ∧ ∃ chain ∈ chains, ∃ block ∈ chain.blocks, block.hash = event.blockHash ∧
    ∃ log logIndex, ((event.txHash, position, log), logIndex) ∈ block.logs.zipIdx ∧
      event.logIndex = some (asU32 logIndex)

structure AnnouncesLog (platform : Platform) (chainId : Nat) (txHash : B256) (position : Nat)
    (event : PaymentDetected) : Prop where
  onChain : event.chainId = chainId
  inTx : event.txHash = txHash
  located : Locates (platform.nodes chainId).history event position

def HasLiveRow (db : Db) (event : PaymentDetected) : Prop :=
  ∃ row ∈ db.payments.rows, transferKey event = some row.txKey ∧ row.reorged = false

/--
The row counts the log at a position of a transaction: it is not reorged, has a
credit, and an applied announcement of that log is filed under it.
-/
structure CountedBy (platform : Platform) (chainId : Nat) (txHash : B256) (position : Nat)
    (row : Payment) : Prop where
  mem : row ∈ platform.db.payments.rows
  live : row.reorged = false
  credited : row.creditedAmount ≠ none
  announced : ∃ event, .paymentDetected event ∈ platform.log ∧ transferKey event = some row.txKey ∧
    AnnouncesLog platform chainId txHash position event

def LogOnChain (chain : Chain) (txHash : B256) (position : Nat) : Prop :=
  ∃ block ∈ chain.blocks, ∃ tx ∈ block.transactions, tx.hash = txHash ∧ position < tx.logs.length

def CountedOnce (platform : Platform) : Prop :=
  ∀ chainId txHash position, LogOnChain (platform.nodes chainId).chain txHash position →
    ∀ row row', CountedBy platform chainId txHash position row →
      CountedBy platform chainId txHash position row' → row = row'

/--
A payment is applied under the index its log was announced with before, unless
the row of the earlier announcement is reorged.
-/
def KeepsIndex (platform : Platform) : PlatformAction → Prop
  | .apply chainId _ _ _ => ∀ event, platform.next? chainId = some (.paymentDetected event) →
    ∀ position, AnnouncesLog platform chainId event.txHash position event →
      ∀ earlier, .paymentDetected earlier ∈ platform.log →
        AnnouncesLog platform chainId event.txHash position earlier →
        HasLiveRow platform.db earlier → earlier.logIndex = event.logIndex
  | _ => True

/-! ## Rows outlive the steps -/

def KeepsRows (db db' : Db) : Prop :=
  ∀ row ∈ db.payments.rows, ∃ row' ∈ db'.payments.rows, SameTransfer row row'

theorem KeepsRows.refl (db : Db) : KeepsRows db db := fun row mem => ⟨row, mem, SameTransfer.refl row⟩

theorem keepsRows_of_step {divide : Division} {before after : Platform} {action : PlatformAction}
    (step : (platform divide).step before action after) : KeepsRows before.db after.db := by
  refine Platform.db_of_step (I := KeepsRows before.db) step ?_ ?_ (KeepsRows.refl _)
  · intro _ _ _ db db' write keeps row mem
    obtain ⟨mid, memMid, first⟩ := keeps row mem
    obtain ⟨row', mem', second⟩ := write.keeps memMid
    exact ⟨row', mem', first.trans second⟩
  · intro db db' write keeps
    unfold KeepsRows
    rw [write.samePayments]
    exact keeps

def HasRow (db : Db) (event : PaymentDetected) : Prop :=
  ∃ row ∈ db.payments.rows, transferKey event = some row.txKey

variable {event : PaymentDetected}

theorem HasRow.mono {db db' : Db} (keeps : KeepsRows db db') (filed : HasRow db event) : HasRow db' event := by
  obtain ⟨row, mem, isKey⟩ := filed
  obtain ⟨row', mem', same⟩ := keeps row mem
  exact ⟨row', mem', by rw [isKey, Db.txKey_of_identity same.identity]⟩

theorem HasLiveRow.back {db db' : Db} (keeps : KeepsRows db db') (filed : HasRow db event)
    (live : HasLiveRow db' event) : HasLiveRow db event := by
  obtain ⟨row, mem, isKey⟩ := filed
  obtain ⟨row', mem', isKey', live⟩ := live
  obtain ⟨kept, memKept, same⟩ := keeps row mem
  have sameKey : row'.txKey = kept.txKey := by
    rw [Db.txKey_of_identity same.identity, ← Option.some.injEq, ← isKey, isKey']
  rw [Db.eq_of_txKey mem' memKept sameKey] at live
  refine ⟨row, mem, isKey, ?_⟩
  by_contra reorged
  rw [same.reorged (by simpa using reorged)] at live
  cases live

variable {world : World EventConsumerError Time}

/-- An announcement whose application succeeded has a row. -/
theorem hasRow_of_applied {divide : Division} {delivery : Delivery} {db : Db}
    (done : (handleEvent divide delivery (.paymentDetected event) world 0 db).result = .ok ()) :
    HasRow (handleEvent divide delivery (.paymentDetected event) world 0 db).state event := by
  obtain ⟨now, payment, txIndex, _, isDescribed, stored⟩ :=
    (handlePaymentDetected_spec divide delivery event 0 db rfl).of_ok done
  obtain ⟨row, isRow, upserted⟩ := upsertWithTxIndexAndObligation_ok stored
  obtain ⟨filed, isFiled⟩ := upserted.filed
  refine ⟨filed, isFiled.mem, ?_⟩
  rw [transferKey_of_row isDescribed isRow, isFiled.key]

/-! ## Every run -/

def OneIndex (platform : Platform) : Prop :=
  ∀ chainId txHash position event event', .paymentDetected event ∈ platform.log →
    .paymentDetected event' ∈ platform.log →
    AnnouncesLog platform chainId txHash position event →
    AnnouncesLog platform chainId txHash position event' →
    HasLiveRow platform.db event → HasLiveRow platform.db event' → event.logIndex = event'.logIndex

def KnowsBlock (chains : List Chain) (event : PaymentDetected) : Prop :=
  event.isNative = false → ∃ chain ∈ chains, ∃ block ∈ chain.blocks, block.hash = event.blockHash

/-- Where applied announcements come from, and that they are filed. -/
structure LogFiled (platform : Platform) : Prop where
  known : ∀ chainId event, .paymentDetected event ∈ (platform.nodes chainId).monitor.events →
    KnowsBlock (platform.nodes chainId).history event
  sent : ∀ event, .paymentDetected event ∈ platform.log →
    .paymentDetected event ∈ (platform.nodes event.chainId).monitor.events
  filed : ∀ event, .paymentDetected event ∈ platform.log → HasRow platform.db event

variable {chains chains' : List Chain}

theorem KnowsBlock.mono (known : KnowsBlock chains event) (more : chains ⊆ chains') :
    KnowsBlock chains' event := by
  intro isToken
  obtain ⟨chain, mem, rest⟩ := known isToken
  exact ⟨chain, more mem, rest⟩

theorem knowsBlock_of_sound {node : Node} {block : BlockNotification} {now : Time} {during : List Chain}
    {world : World EvmError Chain} (current : node.chain ∈ node.history)
    (sound : ChainMonitor.Sound (node.Serves during) block node.monitor now event) :
    KnowsBlock (node.perform (.process block now during world)).history event := by
  obtain ⟨chain, number, scanned, hash, isServed, _, _, here, _, detected⟩ := sound
  intro isToken
  refine ⟨chain, isServed.mem_history current, scanned, Chain.mem_of_blockAt? here, ?_⟩
  rcases detected with ⟨_, _, _, _, _, _, _, rfl⟩ | ⟨_, _, _, _, _, _, _, _, _, _, _, rfl⟩
  · cases isToken
  · rfl

variable {position chainId : Nat}

/-- Later chains do not move a log whose block is known. -/
theorem Locates.back (free : CollisionFree chains') (more : chains ⊆ chains') (known : KnowsBlock chains event)
    (located : Locates chains' event position) : Locates chains event position := by
  obtain ⟨isToken, chain', memChain', block', memBlock', isHash', log⟩ := located
  obtain ⟨chain, memChain, block, memBlock, isHash⟩ := known isToken
  obtain rfl := free chain (more memChain) chain' memChain' block memBlock block' memBlock'
    (isHash.trans isHash'.symm)
  exact ⟨isToken, chain, memChain, block, memBlock, isHash, log⟩

variable {txHash : B256}

section Step

variable {divide : Division} {before after : Platform} {action : PlatformAction} (inv : LogFiled before)
  (grounded : before.Grounded) (taken : (platform divide).step before action after)
include inv grounded taken

theorem LogFiled.step : LogFiled after := by
  have keeps := keepsRows_of_step taken
  have events : ∀ chainId event, event ∈ (before.nodes chainId).monitor.events →
      event ∈ (after.nodes chainId).monitor.events := by
    intro chainId event mem
    rcases Platform.node_of_step taken chainId with same | ⟨nodeAction, _, valid, isNode, _⟩
    · rwa [same]
    · obtain ⟨sent, isSent, _⟩ := (Node.changed_of_valid valid).events
      rw [isNode, isSent]
      exact List.mem_append_left _ mem
  refine ⟨?_, ?_, ?_⟩
  · intro chainId event mem
    have more := history_of_step taken chainId
    rcases Platform.node_of_step taken chainId with same | ⟨nodeAction, _, valid, isNode, _⟩
    · rw [same] at mem ⊢
      exact inv.known chainId event mem
    · rw [isNode] at mem more ⊢
      refine Node.detected_of_step valid ?_ (fun event old => (inv.known chainId event old).mono more) mem
      rintro block now during world event rfl sound
      exact knowsBlock_of_sound (grounded.current chainId) sound
  · intro event mem
    rcases Platform.log_of_step taken mem with old | ⟨chainId, _, _, _, _, isNext, _⟩
    · exact events _ _ (inv.sent event old)
    · have sent := Platform.mem_of_next? isNext
      rw [(grounded.detected chainId event sent).1]
      exact events _ _ sent
  intro event mem
  rcases Platform.log_of_step taken mem with old | ⟨_, _, _, _, _, _, done, isDb⟩
  · exact (inv.filed event old).mono keeps
  · rw [isDb]
    exact hasRow_of_applied done

section

variable (free : ∀ chainId, CollisionFree (after.nodes chainId).history)
include free

/-- An announcement in the log says of a log what it said before the step. -/
theorem AnnouncesLog.back
    (logged : .paymentDetected event ∈ after.log)
    (announces : AnnouncesLog after chainId txHash position event) :
    AnnouncesLog before chainId txHash position event := by
  have known : KnowsBlock (before.nodes event.chainId).history event := by
    rcases Platform.log_of_step taken logged with old | ⟨chainId', _, _, _, _, isNext, _⟩
    · exact inv.known event.chainId event (inv.sent event old)
    · have sent := Platform.mem_of_next? isNext
      rw [(grounded.detected chainId' event sent).1]
      exact inv.known chainId' event sent
  rw [announces.onChain] at known
  exact ⟨announces.onChain, announces.inTx,
    announces.located.back (free chainId) (history_of_step taken chainId) known⟩

theorem index_of_applied (keeps : KeepsIndex before action) {applyId : Nat} {delivery : Delivery}
    {commits : Bool} (isAction : action = .apply applyId delivery world commits) {earlier : PaymentDetected}
    (isNext : before.next? applyId = some (.paymentDetected event))
    (old : .paymentDetected earlier ∈ before.log) (logged : .paymentDetected earlier ∈ after.log)
    (logged' : .paymentDetected event ∈ after.log)
    (announces : AnnouncesLog after chainId txHash position earlier)
    (announces' : AnnouncesLog after chainId txHash position event) (live : HasLiveRow after.db earlier) :
    earlier.logIndex = event.logIndex := by
  have isChain : chainId = applyId := by
    rw [← announces'.onChain]
    exact (grounded.detected applyId event (Platform.mem_of_next? isNext)).1
  subst isChain
  have isTx := announces'.inTx
  subst isTx
  rw [isAction] at keeps
  exact keeps event isNext position (announces'.back inv grounded taken free logged') earlier old
    (announces.back inv grounded taken free logged) (live.back (keepsRows_of_step taken)
      (inv.filed earlier old))

end

theorem OneIndex.step (one : OneIndex before) (keeps : KeepsIndex before action)
    (free : ∀ chainId, CollisionFree (after.nodes chainId).history) : OneIndex after := by
  intro chainId txHash position event event' logged logged' announces announces' live live'
  rcases Platform.log_of_step taken logged with old | ⟨applyId, delivery, world, commits, isAction, isNext, _⟩
  · rcases Platform.log_of_step taken logged' with old' | ⟨applyId, delivery, world, commits, isAction,
      isNext, _⟩
    · have keepsRows := keepsRows_of_step taken
      exact one chainId txHash position event event' old old'
        (announces.back inv grounded taken free logged) (announces'.back inv grounded taken free logged')
        (live.back keepsRows (inv.filed event old)) (live'.back keepsRows (inv.filed event' old'))
    · exact index_of_applied inv grounded taken free keeps isAction isNext old logged logged' announces
        announces' live
  rcases Platform.log_of_step taken logged' with old' | ⟨applyId', _, _, _, isAction', isNext', _⟩
  · exact (index_of_applied inv grounded taken free keeps isAction isNext old' logged' logged announces'
      announces live').symm
  rw [isAction] at isAction'
  cases isAction'
  rw [isNext] at isNext'
  cases isNext'
  rfl

end Step

theorem transferKey_eq {platform : Platform} {event' : PaymentDetected}
    (announces : AnnouncesLog platform chainId txHash position event)
    (announces' : AnnouncesLog platform chainId txHash position event')
    (sameIndex : event.logIndex = event'.logIndex) : transferKey event = transferKey event' := by
  simp only [transferKey, PaymentDetected.txIndex, announces.located.1, announces'.located.1,
    announces.onChain, announces'.onChain, announces.inTx, announces'.inTx, sameIndex]

/--
In every run in which a payment is applied under the index its log was announced
with before, unless the row of that announcement is reorged, every log on the
canonical chain is counted by at most one row.
-/
theorem counted_once (divide : Division) {after : Platform}
    (reached : ((platform divide).restrict KeepsIndex).Reachable after)
    (free : ∀ chainId, CollisionFree (after.nodes chainId).history) : CountedOnce after := by
  have both : LogFiled after ∧
      ((∀ chainId, CollisionFree (after.nodes chainId).history) → OneIndex after) := by
    refine reached.invariant (I := fun after => LogFiled after ∧
      ((∀ chainId, CollisionFree (after.nodes chainId).history) → OneIndex after)) ?_ ?_
    · intro start isInitial
      refine ⟨⟨?_, ?_, ?_⟩, ?_⟩
      · intro chainId event mem
        rw [(isInitial.fresh chainId).events] at mem
        cases mem
      · intro event mem
        rw [isInitial.log] at mem
        cases mem
      · intro event mem
        rw [isInitial.log] at mem
        cases mem
      · intro _ _ _ _ _ _ mem
        rw [isInitial.log] at mem
        cases mem
    rintro before action after reached ⟨inv, one⟩ ⟨step, keeps⟩
    have grounded := Platform.grounded reached
    refine ⟨inv.step grounded step, fun free => ?_⟩
    have freeBefore : ∀ chainId, CollisionFree (before.nodes chainId).history :=
      fun chainId => (free chainId).mono (history_of_step step chainId)
    exact (one freeBefore).step inv grounded step keeps free
  intro chainId txHash position _ row row' counted counted'
  obtain ⟨event, logged, isKey, announces⟩ := counted.announced
  obtain ⟨event', logged', isKey', announces'⟩ := counted'.announced
  have sameIndex := both.2 free chainId txHash position event event' logged logged' announces announces'
    ⟨row, counted.mem, isKey, counted.live⟩ ⟨row', counted'.mem, isKey', counted'.live⟩
  have sameKey := transferKey_eq announces announces' sameIndex
  rw [isKey, isKey', Option.some.injEq] at sameKey
  exact Db.eq_of_txKey counted.mem counted'.mem sameKey

/-! ## A payment mined again at another index -/

def tokenOption : PaymentOptionData :=
  { sampleOption with tokenAddress := some (addressText 9), decimals := 0 }

theorem tokenOption_quoted : Quoted tokenOption :=
  ⟨by simp [tokenOption, sampleOption], fun _ _ => ⟨5, isHexText_hexText 40 5⟩⟩

def tokenTx : Tx :=
  ⟨7, 6, some 9, 0, true, [⟨9, [transferTopic, 6, 5], List.replicate 31 0 ++ [1]⟩], by simp⟩

/-- A call of token 9 that emits a log of another kind. -/
def otherTx : Tx := ⟨8, 6, some 9, 0, true, [⟨9, [], []⟩], by simp⟩

def minedBlock : Block := ⟨1, 101, 100, [tokenTx]⟩

/-- The block that replaces it has the payment too, behind another log or not. -/
def reminedBlock (shifted : Bool) : Block := ⟨1, 201, 100, (if shifted then [otherTx] else []) ++ [tokenTx]⟩

def minedChain : Chain :=
  ⟨[genesis, minedBlock], by decide, by decide, by decide, by decide, by decide⟩

def reminedChain (shifted : Bool) : Chain :=
  ⟨[genesis, reminedBlock shifted], by simp, by rfl, by decide +revert, by simp, by decide +revert⟩

/-- The payment is scanned and applied. -/
def minedPlatform : Platform :=
  ((quotedPlatform tokenOption ⟨5, 1, none, some 9, 0⟩ minedChain).perform (· / ·)
    (scan minedChain minedBlock)).perform (· / ·) (applyNext 1)

/-- Its block is replaced, and the replacement scanned. -/
def reminedPlatform (shifted : Bool) : Platform :=
  (minedPlatform.perform (· / ·) (.node 1 (.replace (reminedChain shifted)))).perform (· / ·)
    (scan (reminedChain shifted) (reminedBlock shifted))

/-- The reorganisation and the second announcement are applied. -/
def recountedPlatform (shifted : Bool) : Platform :=
  ((reminedPlatform shifted).perform (· / ·) (applyNext 2)).perform (· / ·) (applyNext 3)

def logIndices (events : List MonitorEvent) : List (Option Nat) :=
  events.filterMap fun
    | .paymentDetected event => some event.logIndex
    | _ => none

theorem keepsIndex_of_logIndices {platform : Platform} {paymentId : Uuid} (index : Option Nat)
    (logged : logIndices platform.log ⊆ [index])
    (sent : logIndices (platform.nodes 1).monitor.events ⊆ [index]) :
    KeepsIndex platform (applyNext paymentId) := by
  intro event isNext position _ earlier memEarlier _ _
  have isEarlier := logged (List.mem_filterMap.mpr ⟨.paymentDetected earlier, memEarlier, rfl⟩)
  have isEvent := sent (List.mem_filterMap.mpr
    ⟨.paymentDetected event, Platform.mem_of_next? isNext, rfl⟩)
  rw [List.mem_singleton.mp isEarlier, List.mem_singleton.mp isEvent]

theorem minedPlatform_reachable (condition : Platform → PlatformAction → Prop)
    (meets : ∀ platform action,
      (∀ chainId delivery world commits, action ≠ .apply chainId delivery world commits) →
      condition platform action)
    (applies : condition ((quotedPlatform tokenOption ⟨5, 1, none, some 9, 0⟩ minedChain).perform (· / ·)
      (scan minedChain minedBlock)) (applyNext 1)) :
    ((platform (· / ·)).restrict condition).Reachable minedPlatform := by
  exact appliedPlatform_reachable minedChain tokenOption_quoted (by decide +kernel)
    (meets _ _ (by simp)) (meets _ _ (by simp)) (by decide +kernel) (by decide)
    (meets _ _ (by simp [scan])) applies

theorem recountedPlatform_reachable (condition : Platform → PlatformAction → Prop) (shifted : Bool)
    (meets : ∀ platform action,
      (∀ chainId delivery world commits, action ≠ .apply chainId delivery world commits) →
      condition platform action)
    (first : condition ((quotedPlatform tokenOption ⟨5, 1, none, some 9, 0⟩ minedChain).perform (· / ·)
      (scan minedChain minedBlock)) (applyNext 1))
    (second : condition (reminedPlatform shifted) (applyNext 2))
    (third : condition ((reminedPlatform shifted).perform (· / ·) (applyNext 2)) (applyNext 3)) :
    ((platform (· / ·)).restrict condition).Reachable (recountedPlatform shifted) := by
  have replaced := Platform.reachable_perform (minedPlatform_reachable condition meets first)
    (.node 1 (.replace (reminedChain shifted))) ⟨trivial, by simp⟩ (meets _ _ (by simp))
  have rescanned := Platform.reachable_perform replaced (scan (reminedChain shifted) (reminedBlock shifted))
    (scan_valid rfl (by simp [Platform.perform, Node.perform]) (by simp [reminedChain]))
    (meets _ _ (by simp [scan]))
  have retracted := Platform.reachable_perform rescanned (applyNext 2) (by
    change 2 ∉ minedPlatform.db.payments.keys
    decide +kernel) second
  refine Platform.reachable_perform retracted (applyNext 3) ?_ third
  change 3 ∉ ((reminedPlatform shifted).perform (· / ·) (applyNext 2)).db.payments.keys
  cases shifted <;> decide +kernel

theorem recountedPlatform_nodes : (recountedPlatform shifted).nodes = (reminedPlatform shifted).nodes := by
  rw [recountedPlatform, applyNext, applyNext, Platform.nodes_perform_apply,
    Platform.nodes_perform_apply]

theorem recountedPlatform_history (chainId : Nat) :
    ((recountedPlatform shifted).nodes chainId).history =
      if chainId = 1 then [minedChain, reminedChain shifted] else [minedChain] := by
  have areMined : minedPlatform.nodes = ((quotedPlatform tokenOption ⟨5, 1, none, some 9, 0⟩
      minedChain).perform (· / ·) (scan minedChain minedBlock)).nodes := by
    rw [minedPlatform, applyNext, Platform.nodes_perform_apply]
  rw [recountedPlatform_nodes]
  split
  next isOne =>
    subst isOne
    simp [reminedPlatform, Platform.perform, areMined, scan, Node.perform, quotedPlatform, startPlatform]
  next other =>
    simp [reminedPlatform, Platform.perform, areMined, scan, quotedPlatform, startPlatform, other]

theorem counted_once_remined :
    (recountedPlatform false).db.payments.rows.length = 1 ∧ CountedOnce (recountedPlatform false) := by
  have sentAgain : logIndices ((reminedPlatform false).nodes 1).monitor.events ⊆ [some 0] := by
    decide +kernel
  refine ⟨by decide +kernel, counted_once (· / ·) (recountedPlatform_reachable _ false ?_ ?_ ?_ ?_) ?_⟩
  · intro platform action other
    cases action with
    | apply chainId delivery world commits => exact absurd rfl (other chainId delivery world commits)
    | _ => trivial
  · exact keepsIndex_of_logIndices (some 0) (by decide +kernel) (by decide +kernel)
  · exact keepsIndex_of_logIndices (some 0) (by decide +kernel) sentAgain
  · refine keepsIndex_of_logIndices (some 0) (by decide +kernel) ?_
    rw [applyNext, Platform.nodes_perform_apply]
    exact sentAgain
  · intro chainId
    rw [recountedPlatform_history]
    split <;> decide

def tokenAnnouncement (block : Block) (logIndex : Nat) : PaymentDetected :=
  ((startPlatform minedChain).nodes 1).monitor.tokenPayment block 0 7 logIndex 9 6 5 1 1

theorem counted_of_announcement {chain : Chain} {block : Block} {logIndex : Nat} {row : Payment}
    (memChain : chain ∈ [minedChain, reminedChain true]) (memBlock : block ∈ chain.blocks)
    (isLog : ((7, 0, ⟨9, [transferTopic, 6, 5], List.replicate 31 0 ++ [1]⟩), logIndex) ∈
      block.logs.zipIdx)
    (logged : .paymentDetected (tokenAnnouncement block logIndex) ∈ (recountedPlatform true).log)
    (mem : row ∈ (recountedPlatform true).db.payments.rows)
    (counts : row.reorged = false ∧ row.creditedAmount ≠ none)
    (isKey : transferKey (tokenAnnouncement block logIndex) = some row.txKey) :
    CountedBy (recountedPlatform true) 1 7 0 row := by
  refine ⟨mem, counts.1, counts.2, tokenAnnouncement block logIndex, logged, isKey, rfl, rfl, rfl, chain,
    ?_, block, memBlock, rfl, _, logIndex, isLog, rfl⟩
  rw [recountedPlatform_history]
  exact memChain

/-- The payment mined again behind another log is counted by two rows. -/
theorem counted_twice_when_shifted :
    (platform (· / ·)).Reachable (recountedPlatform true) ∧ ¬ CountedOnce (recountedPlatform true) := by
  constructor
  · exact System.Reachable.of_restrict (recountedPlatform_reachable (fun _ _ => True) true
      (fun _ _ _ => trivial) trivial trivial trivial)
  intro once
  have firstRow : ∃ row ∈ (recountedPlatform true).db.payments.rows,
      (row.reorged = false ∧ row.creditedAmount ≠ none) ∧
        transferKey (tokenAnnouncement minedBlock 0) = some row.txKey := by decide +kernel
  have secondRow : ∃ row ∈ (recountedPlatform true).db.payments.rows,
      (row.reorged = false ∧ row.creditedAmount ≠ none) ∧
        transferKey (tokenAnnouncement (reminedBlock true) 1) = some row.txKey := by decide +kernel
  obtain ⟨row, mem, counts, isKey⟩ := firstRow
  obtain ⟨row', mem', counts', isKey'⟩ := secondRow
  have counted := counted_of_announcement List.mem_cons_self (by decide) (by decide)
    (by decide +kernel) mem counts isKey
  have counted' := counted_of_announcement (List.mem_cons_of_mem _ List.mem_cons_self) (by decide)
    (by decide) (by decide +kernel) mem' counts' isKey'
  have onChain : LogOnChain ((recountedPlatform true).nodes 1).chain 7 0 := by
    rw [recountedPlatform_nodes]
    exact ⟨reminedBlock true, by decide, tokenTx, by decide, rfl, by decide⟩
  rw [once 1 7 0 onChain row row' counted counted', ← isKey'] at isKey
  exact absurd isKey (by decide)

end EthPayServer.Pipeline
