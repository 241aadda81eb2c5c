import EthPayServer.Evm.Survival
import EthPayServer.Pipeline.Counted

/-!
# What a reorganisation leaves alone

The consumer retracts the candidates whose transaction is not among the
survivors of the report.  The report lists every transaction that a watched key
can be seen to be paid by, so such a payment stays as it is, however the
application of the report ends.
-/

namespace EthPayServer.Pipeline

open Lib Data Consumer Evm

/-! ## Payments still on the chain -/

/-- A transaction of a block of the range has the hash stored in the row, in some letter case. -/
def MinedIn (chain : Chain) (first last : Nat) (row : Payment) (tx : Tx) : Prop :=
  ∃ number block, first ≤ number ∧ number ≤ last ∧ chain.blockAt? number = some block ∧
    tx ∈ block.transactions ∧ IsHexText 64 tx.hash.toNat row.txHash.val

theorem parseHash_of_isHexText {hash : B256} {text : Text} (spelled : IsHexText 64 hash.toNat text) :
    parseHash text = some hash := by
  have fits : hash.toNat < 16 ^ 64 := hash.isLt
  simp [parseHash, spelled.parse_eq fits]

theorem mem_of_survived {delivery : Delivery} {report : ReorgDetected}
    {world : World EventConsumerError Time} {db : Db} {row : Payment} (mem : row ∈ db.payments.rows)
    {hash : B256} (spelled : IsHexText 64 hash.toNat row.txHash.val)
    (listed : hash ∈ report.survivedTxHashes) :
    row ∈ (handleReorgDetected delivery report world 0 db).state.payments.rows := by
  have found : survived report row = true :=
    List.any_eq_true.mpr ⟨hash, listed, by simp [txHashEq, parseHash_of_isHexText spelled]⟩
  by_cases verifiable : report.survivorsVerifiable = true
  · obtain ⟨marked, written, front, state, _, _⟩ := retraction_front delivery world verifiable
    refine state.mem_of_unmarked mem fun isMarked => ?_
    -- a report marks the payments it retracts only
    have listed := (mem_planIds delivery).mp (List.mem_flatMap.mpr (front.mem_marked isMarked))
    obtain ⟨_, _, _, _, lost⟩ := mem_retractions.mp ((mem_retractionIds mem).mp listed)
    rw [found] at lost
    cases lost
  · rw [handleReorgDetected, if_neg verifiable]
    exact mem

/--
For every call of `processBlock` and every application of a report it sent: a
row whose transaction is in a block between the fork and the new head and shows
there a payment to a watched key stays as it is, and with nothing watched the
whole database does.  A call whose survivor scan fails sends nothing.
-/
theorem survivors_spared (divide : Division) (world : World EvmError Chain) (monitor : ChainMonitor)
    (block : BlockNotification) (now : Time) (delivery : Delivery)
    (dbWorld : World EventConsumerError Time) (db : Db) :
    (∀ report, .reorgDetected report ∈
        monitor.sent (ChainMonitor.processBlock block now world 0 monitor).state →
      (∀ chain, (∀ i j, ChainMonitor.Scanned world monitor block report i j →
          AnswersFrom chain world i j) →
        ∀ row ∈ db.payments.rows, ∀ tx, MinedIn chain report.forkBlock block.number row tx →
        ∀ key ∈ monitor.watched.keys, tx.ShowsPayment key →
          row ∈ (handleEvent divide delivery (.reorgDetected report) dbWorld 0 db).state.payments.rows) ∧
      (monitor.watched.rows = [] →
        (handleEvent divide delivery (.reorgDetected report) dbWorld 0 db).state = db)) ∧
    ∀ forkBlock i e, ChainMonitor.Notices world monitor block forkBlock i →
      (ChainMonitor.findSurvivedTxHashes forkBlock block.number world i monitor).result = .error e →
      (ChainMonitor.processBlock block now world 0 monitor).result = .error e ∧
        monitor.sent (ChainMonitor.processBlock block now world 0 monitor).state = [] := by
  refine ⟨fun report isSent => ?_, fun forkBlock i e notices failed => ?_⟩
  · obtain ⟨i, j, scanned⟩ := ChainMonitor.scanned_of_sent isSent
    refine ⟨?_, fun nothing => ?_⟩
    · rintro chain steady row mem tx ⟨number, mined, low, high, here, memTx, spelled⟩ key isWatched shows
      exact mem_of_survived mem spelled (ChainMonitor.mem_survived scanned.scan (steady i j scanned)
        isWatched low high here memTx shows)
    have blind : report.survivorsVerifiable = false := by
      rw [ChainMonitor.verifiable_of_scan scanned.scan, nothing]
      rfl
    change (handleReorgDetected delivery report dbWorld 0 db).state = db
    simp [handleReorgDetected, blind]
  obtain ⟨fails, same⟩ := @ChainMonitor.processBlock_of_failed_scan i forkBlock world monitor
    block now notices e failed
  refine ⟨fails, ?_⟩
  rw [same]
  exact List.drop_length

/-! ## A payment mined again, and one that reverts -/

/-- The monitor of chain 1 when the replacement of the payment's block is announced. -/
def forkedMonitor (chain : Chain) : ChainMonitor :=
  (((minedPlatform.perform (· / ·) (.node 1 (.replace chain))).nodes 1).monitor)

/-- The reports of the call for the replacement. -/
def reportsOn (chain : Chain) (block : Block) : List ReorgDetected :=
  ((forkedMonitor chain).sent (ChainMonitor.processBlock block.notification 0 (answering chain) 0
    (forkedMonitor chain)).state).filterMap fun
      | .reorgDetected report => some report
      | _ => none

theorem sent_of_reportsOn {chain : Chain} {block : Block} {report : ReorgDetected}
    (mem : report ∈ reportsOn chain block) :
    .reorgDetected report ∈ (forkedMonitor chain).sent (ChainMonitor.processBlock block.notification 0
      (answering chain) 0 (forkedMonitor chain)).state := by
  obtain ⟨event, memEvent, isReport⟩ := List.mem_filterMap.mp mem
  cases event <;> cases isReport
  exact memEvent

/-- The payment is in the replacement too: the report is applied and the row stays. -/
theorem survivors_spared_remined :
    ∃ report ∈ reportsOn (reminedChain false) (reminedBlock false), ∃ row ∈ minedPlatform.db.payments.rows,
      report.survivorsVerifiable = true ∧ report.forkBlock = 1 ∧ row.reorged = false ∧
      row ∈ (handleEvent (· / ·) (sampleDelivery 2) (.reorgDetected report)
        (Proc.uninterrupted fun _ => 0) 0 minedPlatform.db).state.payments.rows := by
  have sample : ∃ report ∈ reportsOn (reminedChain false) (reminedBlock false),
      ∃ row ∈ minedPlatform.db.payments.rows, report.survivorsVerifiable = true ∧ report.forkBlock = 1 ∧
        row.reorged = false ∧ row.txHash.val = hashText tokenTx.hash := by decide +kernel
  obtain ⟨report, memReport, row, mem, verifiable, isFork, live, isHash⟩ := sample
  refine ⟨report, memReport, row, mem, verifiable, isFork, live, ?_⟩
  have shows : tokenTx.ShowsPayment (5, some 9) := ⟨_, List.mem_singleton_self _, rfl⟩
  refine ((survivors_spared (· / ·) (answering (reminedChain false)) (forkedMonitor (reminedChain false))
    (reminedBlock false).notification 0 (sampleDelivery 2) (Proc.uninterrupted fun _ => 0)
    minedPlatform.db).1 report (sent_of_reportsOn memReport)).1 (reminedChain false) ?_ row mem tokenTx ?_
    (5, some 9) (by decide +kernel) shows
  · intro _ _ _ i _ _ answer answered
    cases answered
    rfl
  · refine ⟨1, reminedBlock false, isFork.le, le_rfl, rfl, List.mem_singleton_self _, ?_⟩
    rw [isHash]
    exact isHexText_hexText 64 _

def PaidToKey (db : Db) (row : Payment) (key : WatchKey) : Prop :=
  PaidAt db row key.1 ∧ row.tokenAddress.bind (fun token => parseAddress token.val) = key.2

/-- The payment's transaction is mined again, but reverts. -/
def revertedTx : Tx := ⟨7, 6, some 9, 0, false, [], fun _ => rfl⟩

def revertedBlock : Block := ⟨1, 201, 100, [revertedTx]⟩

def revertedChain : Chain :=
  ⟨[genesis, revertedBlock], by decide, by decide, by decide, by decide, by decide⟩

/-- The row's transaction is on the chain and its key is watched, but it makes no transfer any more. -/
theorem reverted_payment_retracted :
    (platform (· / ·)).Reachable (minedPlatform.perform (· / ·) (.node 1 (.replace revertedChain))) ∧
    ∃ report, .reorgDetected report ∈ (forkedMonitor revertedChain).sent (ChainMonitor.processBlock
        revertedBlock.notification 0 (answering revertedChain) 0 (forkedMonitor revertedChain)).state ∧
      ∃ row ∈ minedPlatform.db.payments.rows, row.reorged = false ∧
        MinedIn revertedChain report.forkBlock 1 row revertedTx ∧
        PaidToKey minedPlatform.db row (5, some 9) ∧
        (5, some 9) ∈ (forkedMonitor revertedChain).watched.keys ∧
        ∃ row' ∈ (handleEvent (· / ·) (sampleDelivery 2) (.reorgDetected report)
          (Proc.uninterrupted fun _ => 0) 0 minedPlatform.db).state.payments.rows,
          row'.id = row.id ∧ row'.reorged = true := by
  constructor
  · exact System.Reachable.of_restrict (Platform.reachable_perform
      (minedPlatform_reachable (fun _ _ => True) (fun _ _ _ => trivial) trivial)
      (.node 1 (.replace revertedChain)) ⟨trivial, by simp⟩ trivial)
  have sample : ∃ report ∈ reportsOn revertedChain revertedBlock,
      ∃ row ∈ minedPlatform.db.payments.rows, report.forkBlock = 1 ∧ row.reorged = false ∧
        row.txHash.val = hashText revertedTx.hash ∧
        (∃ option ∈ minedPlatform.db.paymentOptions.rows, option.chainId = row.chainId ∧
          parseAddress option.paymentAddress.val = some 5 ∧ row.paymentOptionId = some option.id) ∧
        row.tokenAddress.bind (fun token => parseAddress token.val) = some 9 ∧
        ∃ row' ∈ (handleEvent (· / ·) (sampleDelivery 2) (.reorgDetected report)
          (Proc.uninterrupted fun _ => 0) 0 minedPlatform.db).state.payments.rows,
          row'.id = row.id ∧ row'.reorged = true := by decide +kernel
  obtain ⟨report, memReport, row, mem, isFork, live, isHash, ⟨option, memOption, onChain, isAddress,
    isOption⟩, isToken, retracted⟩ := sample
  refine ⟨report, sent_of_reportsOn memReport, row, mem, live, ?_, ⟨⟨option, memOption, onChain, isAddress,
    ?_⟩, isToken⟩, by decide +kernel, retracted⟩
  · refine ⟨1, revertedBlock, isFork.le, le_rfl, rfl, List.mem_singleton_self _, ?_⟩
    rw [isHash]
    exact isHexText_hexText 64 _
  · rw [isOption]

end EthPayServer.Pipeline
