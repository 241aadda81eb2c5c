import EthPayServer.Pipeline.Platform
import EthPayServer.Pipeline.Confirmation
import EthPayServer.Consumer.Redelivery

/-!
# Money that moved

A block lists a failed transaction with its recipient and value, and the native
scan reads nothing else.  Every row stands for a transfer that took effect as
long as no scanned block holds a failed payment to a watched address.
-/

namespace EthPayServer.Pipeline

open Lib Data Consumer Evm

def MovedIn (chains : List Chain) (event : PaymentDetected) : Prop :=
  ∃ chain ∈ chains, ∃ block ∈ chain.blocks, ∃ transfer ∈ block.transfers,
    event.Announces block.number transfer

/--
No block that the call may scan holds a failed transaction with a value for a
natively watched address.
-/
def NoFailedPayment (node : Node) : NodeAction → Prop
  | .process block _ during _ => ∀ chain, node.Serves during chain → ∀ number scanned,
    node.monitor.scanFrom block.number ≤ number → number ≤ block.number →
    chain.blockAt? number = some scanned → ∀ tx ∈ scanned.transactions, tx.succeeded = false →
      tx.value ≠ 0 → ∀ recipient, tx.recipient = some recipient →
        node.monitor.watched.find? (recipient, none) = none
  | _ => True

variable {event : PaymentDetected}

theorem movedIn_of_sound {node : Node} {block : BlockNotification} {now : Time} {during : List Chain}
    {world : World EvmError Chain} (clean : NoFailedPayment node (.process block now during world))
    (current : node.chain ∈ node.history)
    (sound : ChainMonitor.Sound (node.Serves during) block node.monitor now event) :
    MovedIn (node.perform (.process block now during world)).history event := by
  obtain ⟨chain, number, scanned, hash, isServed, low, high, here, _, detected⟩ := sound
  refine ⟨chain, isServed.mem_history current, scanned, Chain.mem_of_blockAt? here, ?_⟩
  rcases detected with ⟨tx, memTx, recipient, watch, goes, nonzero, isWatched, rfl⟩ |
    ⟨txHash, position, log, logIndex, memLog, sender, recipient, amount, watch, decoded, _, rfl⟩
  · -- a failed transaction to this address is excluded, so the value moved
    have succeeded : tx.succeeded = true := by
      by_contra failed
      have unwatched := clean chain isServed number scanned low high here tx memTx
        (by simpa using failed) nonzero recipient goes
      rw [unwatched] at isWatched
      cases isWatched
    refine ⟨⟨tx.hash, none, none, tx.sender, recipient, tx.value⟩, ?_, rfl, rfl, rfl, rfl, rfl, rfl, rfl⟩
    refine List.mem_append_left _ (List.mem_filterMap.mpr ⟨tx, memTx, ?_⟩)
    rw [if_pos ⟨succeeded, nonzero⟩, goes]
    rfl
  · refine ⟨⟨txHash, some logIndex, some log.address, sender, recipient, amount⟩, ?_,
      rfl, rfl, rfl, rfl, rfl, rfl, rfl⟩
    refine List.mem_append_right _ (List.mem_filterMap.mpr ⟨((txHash, position, log), logIndex), memLog, ?_⟩)
    simp [decoded]

/-! ## Where a row was paid -/

def PaidAt (db : Db) (row : Payment) (address : Address) : Prop :=
  ∃ option ∈ db.paymentOptions.rows, option.chainId = row.chainId ∧
    parseAddress option.paymentAddress.val = some address ∧
    match row.paymentOptionId with
    | some id => option.id = id
    | none => option.invoiceId = row.invoiceId

variable {address : Address}

theorem parseAddress_of_isHexText {text : Text} (spelled : IsHexText 40 address.toNat text) :
    parseAddress text = some address := by
  have fits : address.toNat < 16 ^ 40 := address.isLt
  simp [parseAddress, spelled.parse_eq fits]

variable {db db' : Db}

theorem parseAddress_of_lower (catalog : Catalog db) {option : PaymentOption}
    (mem : option ∈ db.paymentOptions.rows) {number : Nat} (isEvm : option.chainId = .evm number)
    (same : lower option.paymentAddress.val = lower (addressText address)) :
    parseAddress option.paymentAddress.val = some address := by
  obtain ⟨address', spelled⟩ := catalog.addresses option mem number isEvm
  have sameText : addressText address' = addressText address := by
    rw [addressText, ← spelled.lower_eq, same, addressText]
    exact (isHexText_hexText 40 address.toNat).lower_eq
  rw [parseAddress_of_isHexText spelled, addressText_injective sameText]

/-! ## What a row stands for -/

def transferIndex (transfer : Transfer) : Option Int :=
  if transfer.token.isNone then some (-1) else transfer.logIndex.map fun index => asI32 (asU32 index)

theorem txIndex_of_announces {number : Nat} {transfer : Transfer}
    (announces : event.Announces number transfer) : event.txIndex = transferIndex transfer := by
  rw [PaymentDetected.txIndex, transferIndex, announces.isNative, announces.logIndex, Option.map_map]
  rfl

/-- The row names the transfer, with the value it moved to the row's payment address. -/
structure RecordsTransfer (db : Db) (row : Payment) (transfer : Transfer) : Prop where
  txHash : row.txHash.val = hashText transfer.txHash
  txIndex : some row.txIndex = transferIndex transfer
  assetType : row.assetType = if transfer.token.isNone then .native else .erc20
  tokenAddress : row.tokenAddress.map Subtype.val = transfer.token.map addressText
  amount : row.amount.toRat = transfer.value.toNat
  paidAt : PaidAt db row transfer.recipient

def RecordsMoved (chains : List Chain) (db : Db) (row : Payment) : Prop :=
  ∃ chain ∈ chains, ∃ block ∈ chain.blocks, ∃ transfer ∈ block.transfers,
    RecordsTransfer db row transfer

variable {row row' : Payment}

theorem PaidAt.mono (paid : PaidAt db row address) (keeps : KeepsOptions db db')
    (same : row'.identity = row.identity) : PaidAt db' row' address := by
  obtain ⟨option, mem, isChain, isAddress, named⟩ := paid
  have sameChain : row'.chainId = row.chainId := congrArg (fun columns => columns.2.1.1) same
  refine ⟨option, keeps mem, isChain.trans sameChain.symm, isAddress, ?_⟩
  rw [Db.optionId_of_identity same, Db.invoiceId_of_identity same]
  exact named

variable {chains chains' : List Chain} (chain : Chain)

theorem RecordsMoved.mono (moved : RecordsMoved chains db row) (more : chains ⊆ chains')
    (keeps : KeepsOptions db db') (same : SameTransfer row row') : RecordsMoved chains' db' row' := by
  obtain ⟨chain, memChain, block, memBlock, transfer, memTransfer, records⟩ := moved
  have sameKey := Db.txKey_of_identity same.identity
  refine ⟨chain, more memChain, block, memBlock, transfer, memTransfer, ?_⟩
  exact
    { txHash := (congrArg (fun key => key.2.1) sameKey).trans records.txHash
      txIndex := (congrArg (fun key => some key.2.2) sameKey).trans records.txIndex
      assetType := same.assetType.trans records.assetType
      tokenAddress := by rw [same.tokenAddress, records.tokenAddress]
      amount := by rw [same.amount, records.amount]
      paidAt := records.paidAt.mono keeps same.identity }

theorem toRat_of_nat {n : Nat} {stored : Numeric 78 0}
    (written : Numeric.ofRat? (n : ℚ) = some stored) : stored.toRat = n := by
  have isUnits := Numeric.ofUnits?_eq_some.mp written
  have exact := Numeric.roundUnits_div 0 (n : Int)
  simp only [pow_zero, div_one, Int.cast_natCast] at exact
  rw [exact] at isUnits
  simp [Numeric.toRat, isUnits]

theorem recordsMoved_of_described {divide : Division} (catalog : Catalog db) (moved : MovedIn chains event)
    (expects : Expects db event.chainId event.invoiceId (event.paymentAddress, event.tokenAddress))
    {delivery : Delivery} {payment : PaymentData} {txIndex : Int}
    (isDescribed : described divide delivery event db = .ok (payment, txIndex))
    (isRow : payment.toRow txIndex = .ok row) : RecordsMoved chains db row := by
  obtain ⟨chain, memChain, block, memBlock, transfer, memTransfer, announces⟩ := moved
  obtain ⟨isIndex, asset, isAsset, rfl⟩ := described_ok isDescribed
  have proposes := PaymentData.toRow_ok isRow
  have isKind : row.assetType = (if transfer.token.isNone then .native else .erc20) ∧
      row.tokenAddress.map Subtype.val = transfer.token.map addressText := by
    rw [proposes.assetType, proposes.tokenAddress]
    unfold assetFor at isAsset
    rw [announces.isNative, announces.tokenAddress] at isAsset
    cases isToken : transfer.token with
    | none =>
      simp only [isToken, Option.isNone_none, if_true, Except.ok.injEq] at isAsset
      rw [← isAsset]
      exact ⟨rfl, rfl⟩
    | some token =>
      simp only [isToken, Option.isNone_some, Bool.false_eq_true, if_false, Except.ok.injEq] at isAsset
      rw [← isAsset]
      exact ⟨rfl, rfl⟩
  refine ⟨chain, memChain, block, memBlock, transfer, memTransfer, ?_⟩
  refine
    { txHash := by rw [proposes.txHash, ← announces.txHash]; rfl
      txIndex := by rw [proposes.txIndex, ← isIndex, txIndex_of_announces announces]
      assetType := isKind.1
      tokenAddress := isKind.2
      amount := by rw [toRat_of_nat proposes.amount, announces.amount]
      paidAt := ?_ }
  rw [← announces.paymentAddress]
  -- through the option the payment resolved to, or through the option its watch came from
  cases resolved : optionFor event asset.2.2 db with
  | some id =>
    obtain ⟨option, mem, isId, isLate⟩ := optionFor_some catalog resolved
    obtain ⟨sameText, isChain, _⟩ := of_decide_eq_true isLate
    have isAddress := parseAddress_of_lower catalog mem isChain sameText
    have isOption : row.paymentOptionId = some id := proposes.paymentOptionId.trans resolved
    exact ⟨option, mem, isChain.trans proposes.chainId.symm, isAddress, by rw [isOption]; exact isId⟩
  | none =>
    obtain ⟨option, mem, isChain, isInvoice, isAddress, _⟩ := expects
    have isOption : row.paymentOptionId = none := proposes.paymentOptionId.trans resolved
    refine ⟨option, mem, isChain.trans proposes.chainId.symm, isAddress, ?_⟩
    rw [isOption]
    exact isInvoice.trans proposes.invoiceId.symm

/-! ## Every run -/

/-- Every row records a transfer that took effect on its chain. -/
def OnlyMoved (platform : Platform) : Prop :=
  ∀ row ∈ platform.db.payments.rows, ∃ chainId, row.chainId = .evm chainId ∧
    RecordsMoved (platform.nodes chainId).history platform.db row

/-- No monitor scans a failed payment to an address it watches. -/
def ScansNoFailedPayment (platform : Platform) : PlatformAction → Prop
  | .node chainId action => NoFailedPayment (platform.nodes chainId) action
  | _ => True

def AnnouncesMoved (platform : Platform) : Prop :=
  ∀ chainId event, .paymentDetected event ∈ (platform.nodes chainId).monitor.events →
    MovedIn (platform.nodes chainId).history event

theorem MovedIn.mono (moved : MovedIn chains event) (more : chains ⊆ chains') : MovedIn chains' event := by
  obtain ⟨chain, mem, rest⟩ := moved
  exact ⟨chain, more mem, rest⟩

section Step

variable {divide : Division} {before after : Platform} {action : PlatformAction}

theorem history_of_step (step : (platform divide).step before action after) (chainId : Nat) :
    (before.nodes chainId).history ⊆ (after.nodes chainId).history := by
  rcases Platform.node_of_step step chainId with same | ⟨nodeAction, _, _, isNode, _⟩
  · rw [same]
    exact List.Subset.refl _
  · rw [isNode]
    exact Node.history_mono _ nodeAction

theorem AnnouncesMoved.step (announces : AnnouncesMoved before) (grounded : before.Grounded)
    (step : (platform divide).step before action after) (clean : ScansNoFailedPayment before action) :
    AnnouncesMoved after := by
  intro chainId event mem
  have more := history_of_step step chainId
  rcases Platform.node_of_step step chainId with same | ⟨nodeAction, isAction, valid, isNode, _⟩
  · rw [same] at mem ⊢
    exact announces chainId event mem
  rw [isNode] at mem more ⊢
  refine Node.detected_of_step valid ?_ (fun event old => (announces chainId event old).mono more) mem
  rintro block now during world event rfl sound
  rw [isAction] at clean
  exact movedIn_of_sound clean (grounded.current chainId) sound

theorem OnlyMoved.step (only : OnlyMoved before) (announces : AnnouncesMoved before)
    (grounded : before.Grounded) (step : (platform divide).step before action after) :
    OnlyMoved after := by
  have kept : KeepsOptions before.db after.db ∧ Catalog after.db ∧
      ∀ row ∈ after.db.payments.rows, ∃ chainId, row.chainId = .evm chainId ∧
        RecordsMoved (before.nodes chainId).history after.db row := by
    refine Platform.db_of_step (I := fun db => KeepsOptions before.db db ∧ Catalog db ∧
      ∀ row ∈ db.payments.rows, ∃ chainId, row.chainId = .evm chainId ∧
        RecordsMoved (before.nodes chainId).history db row) step ?_ ?_
      ⟨List.Subset.refl _, grounded.catalog, only⟩
    · rintro chainId event memEvent db db' write ⟨keeps, catalog, rows⟩
      have keeps' : KeepsOptions db db' := by
        rw [KeepsOptions, write.sameCatalog.paymentOptions]
        exact List.Subset.refl _
      refine ⟨List.Subset.trans keeps keeps', catalog.write write, ?_⟩
      intro row mem
      rcases write.rows mem with ⟨old, memOld, same⟩ | ⟨detected, delivery, payment, txIndex, rfl,
        isDescribed, isRow⟩
      · obtain ⟨chainId', isChain, moved⟩ := rows old memOld
        refine ⟨chainId', ?_, moved.mono (List.Subset.refl _) keeps' same⟩
        exact (congrArg (fun columns => columns.2.1.1) same.identity).trans isChain
      obtain ⟨isChain, expects⟩ := grounded.detected chainId detected memEvent
      have moved := recordsMoved_of_described catalog (announces chainId detected memEvent)
        (isChain ▸ expects.mono keeps) isDescribed isRow
      refine ⟨chainId, ?_, moved.mono (List.Subset.refl _) keeps' (SameTransfer.refl row)⟩
      obtain ⟨_, asset, _, rfl⟩ := described_ok isDescribed
      rw [(PaymentData.toRow_ok isRow).chainId, ← isChain]
      rfl
    rintro db db' write ⟨keeps, catalog, rows⟩
    have keeps' := keepsOptions_of_admin write
    refine ⟨List.Subset.trans keeps keeps', catalog.admin write, ?_⟩
    intro row mem
    rw [write.samePayments] at mem
    obtain ⟨chainId, isChain, moved⟩ := rows row mem
    exact ⟨chainId, isChain, moved.mono (List.Subset.refl _) keeps' (SameTransfer.refl row)⟩
  obtain ⟨_, _, rows⟩ := kept
  intro row mem
  obtain ⟨chainId, isChain, moved⟩ := rows row mem
  exact ⟨chainId, isChain, moved.mono (history_of_step step chainId) (List.Subset.refl _)
    (SameTransfer.refl row)⟩

end Step

/--
In every run in which no monitor scans a failed payment to an address it
watches, every row records a transfer that succeeded, with the value it moved to
the row's payment address.
-/
theorem only_moved (divide : Division) {after : Platform}
    (reached : ((platform divide).restrict ScansNoFailedPayment).Reachable after) :
    OnlyMoved after := by
  have both : AnnouncesMoved after ∧ OnlyMoved after := by
    refine reached.invariant (I := fun after => AnnouncesMoved after ∧ OnlyMoved after) ?_ ?_
    · intro start isInitial
      constructor
      · intro chainId event mem
        rw [(isInitial.fresh chainId).events] at mem
        cases mem
      · intro row mem
        rw [isInitial.db] at mem
        cases mem
    · rintro before action after reached ⟨announces, only⟩ ⟨step, clean⟩
      have grounded := Platform.grounded reached
      exact ⟨announces.step grounded step clean, only.step announces grounded step⟩
  exact both.2

/-! ## A failed payment -/

/-- Monitors over a chain, and a server with an empty database. -/
def startPlatform (chain : Chain) : Platform :=
  ⟨fun chainId => ⟨chain, [chain], ChainMonitor.new chainId (ChainMonitorConfig.fromChain 2)⟩,
    Db.empty, fun _ => 0, []⟩

theorem startPlatform_initial : (startPlatform chain).IsInitial :=
  ⟨fun _ => ⟨rfl, rfl, rfl, rfl, rfl⟩, fun _ => rfl, fun _ => rfl, rfl, fun _ => rfl, rfl⟩

/-- One option of the invoice over one coin is quoted on chain 1, and its key is watched there. -/
def quotedPlatform (option : PaymentOptionData) (watched : WatchedAddress) (chain : Chain) : Platform :=
  ((startPlatform chain).perform (· / ·) (.admin (.createInvoice sampleInvoice [option]))).perform
    (· / ·) (.node 1 (.watch watched))

/-- The monitor of chain 1 is called for a block of the canonical chain. -/
def scan (chain : Chain) (block : Block) : PlatformAction :=
  .node 1 (.process block.notification 0 [] (answering chain))

theorem scan_valid {platform : Platform} {chain : Chain} {block : Block}
    (isChain : (platform.nodes 1).chain = chain) (known : chain ∈ (platform.nodes 1).history)
    (mem : block ∈ chain.blocks) : platform.Valid (scan chain block) := by
  refine ⟨⟨answering_truthful ?_, chain, List.mem_append_left _ known, block, mem, rfl⟩, ?_⟩
  · rw [Node.Serves, isChain]
    exact List.mem_cons_self
  · rintro watched ⟨⟩

/-- The consumer applies the next event of chain 1. -/
def applyNext (paymentId : Uuid) : PlatformAction :=
  .apply 1 (sampleDelivery paymentId) (Proc.uninterrupted fun _ => 0) true

section Reached

variable {condition : Platform → PlatformAction → Prop} {option : PaymentOptionData}
  {watched : WatchedAddress} (quoted : Quoted option)
  (expects : Expects (AdminAction.perform (.createInvoice sampleInvoice [option]) Db.empty) 1
    watched.invoiceId (watched.address, watched.tokenContract))

section

variable (creates : condition (startPlatform chain) (.admin (.createInvoice sampleInvoice [option])))
  (watches : condition ((startPlatform chain).perform (· / ·)
    (.admin (.createInvoice sampleInvoice [option]))) (.node 1 (.watch watched)))
include quoted expects creates watches

theorem quotedPlatform_reachable_of :
    ((platform (· / ·)).restrict condition).Reachable (quotedPlatform option watched chain) := by
  have start : ((platform (· / ·)).restrict condition).Reachable (startPlatform chain) :=
    System.Reachable.of_initial (startPlatform_initial chain)
  have created := Platform.reachable_perform start
    (.admin (.createInvoice sampleInvoice [option])) ?_ creates
  · refine Platform.reachable_perform created (.node 1 (.watch watched)) ⟨trivial, ?_⟩ watches
    rintro watched ⟨⟩
    exact expects
  · intro option mem
    rw [List.mem_singleton.mp mem]
    exact quoted

/-- A platform on which one block was scanned and its first event applied. -/
theorem appliedPlatform_reachable {block : Block}
    (fresh : 1 ∉ (AdminAction.perform (.createInvoice sampleInvoice [option]) Db.empty).payments.keys)
    (mem : block ∈ chain.blocks)
    (scans : condition (quotedPlatform option watched chain) (scan chain block))
    (applies : condition ((quotedPlatform option watched chain).perform (· / ·) (scan chain block))
      (applyNext 1)) :
    ((platform (· / ·)).restrict condition).Reachable (((quotedPlatform option watched chain).perform
      (· / ·) (scan chain block)).perform (· / ·) (applyNext 1)) := by
  have start := quotedPlatform_reachable_of chain quoted expects creates watches
  have scanned := Platform.reachable_perform start (scan chain block)
    (scan_valid rfl (List.mem_singleton_self _) mem) scans
  exact Platform.reachable_perform scanned (applyNext 1) fresh applies

end

include quoted expects in
theorem quotedPlatform_reachable (meets : ∀ platform action, (∀ chainId block now during world,
      action ≠ .node chainId (.process block now during world)) →
      (∀ chainId delivery world commits, action ≠ .apply chainId delivery world commits) →
      condition platform action) :
    ((platform (· / ·)).restrict condition).Reachable (quotedPlatform option watched chain) :=
  quotedPlatform_reachable_of chain quoted expects (meets _ _ (by simp) (by simp))
    (meets _ _ (by simp) (by simp))

end Reached

theorem sampleOption_quoted : Quoted sampleOption :=
  ⟨by simp [sampleOption], fun _ _ => ⟨5, isHexText_hexText 40 5⟩⟩

def oneCoinBlock (succeeded : Bool) : Block := ⟨1, 101, 100, [samplePayment 7 (10 ^ 18) succeeded]⟩

/-- A chain with one payment of one coin to address 5. -/
def oneCoinChain (succeeded : Bool) : Chain :=
  ⟨[genesis, oneCoinBlock succeeded], by simp, by rfl, by decide +revert, by simp, by decide +revert⟩

/-- Address 5 is quoted and watched. -/
def oneCoinStart (succeeded : Bool) : Platform :=
  quotedPlatform sampleOption ⟨5, 1, none, none, 0⟩ (oneCoinChain succeeded)

/-- The payment's block is scanned and its event applied. -/
def oneCoinPlatform (succeeded : Bool) : Platform :=
  ((oneCoinStart succeeded).perform (· / ·) (scan (oneCoinChain succeeded)
    (oneCoinBlock succeeded))).perform (· / ·) (applyNext 1)

theorem oneCoinPlatform_reachable (condition : Platform → PlatformAction → Prop) (succeeded : Bool)
    (meets : ∀ platform action, (∀ chainId block now during world,
      action ≠ .node chainId (.process block now during world)) → condition platform action)
    (scans : condition (oneCoinStart succeeded) (scan (oneCoinChain succeeded)
      (oneCoinBlock succeeded))) :
    ((platform (· / ·)).restrict condition).Reachable (oneCoinPlatform succeeded) := by
  exact appliedPlatform_reachable (oneCoinChain succeeded) sampleOption_quoted (by decide +kernel)
    (meets _ _ (by simp)) (meets _ _ (by simp)) (by decide +kernel)
    (List.mem_cons_of_mem _ (List.mem_singleton_self _)) scans (meets _ _ (by simp [applyNext]))

theorem only_moved_succeeded :
    (oneCoinPlatform true).db.payments.rows.length = 1 ∧ OnlyMoved (oneCoinPlatform true) := by
  refine ⟨by decide +kernel, only_moved (· / ·) (oneCoinPlatform_reachable _ true ?_ ?_)⟩
  · intro platform action other
    cases action with
    | node chainId action =>
      cases action with
      | process block now during world => exact absurd rfl (other chainId block now during world)
      | _ => trivial
    | _ => trivial
  have allSucceed : ∀ block ∈ (oneCoinChain true).blocks, ∀ tx ∈ block.transactions,
      tx.succeeded = true := by decide
  intro chain isServed number scanned _ _ here tx memTx failed
  obtain rfl : chain = oneCoinChain true := List.mem_singleton.mp isServed
  rw [allSucceed scanned (Chain.mem_of_blockAt? here) tx memTx] at failed
  cases failed

/-- The row of the failed transaction credits a coin that never moved. -/
theorem failed_payment_credited :
    (platform (· / ·)).Reachable (oneCoinPlatform false) ∧ ¬ OnlyMoved (oneCoinPlatform false) := by
  constructor
  · exact System.Reachable.of_restrict (oneCoinPlatform_reachable (fun _ _ => True) false
      (fun _ _ _ => trivial) trivial)
  intro only
  have nothingMoved : ∀ block ∈ (oneCoinChain false).blocks, block.transfers = [] := by decide
  have paid : ∃ row ∈ (oneCoinPlatform false).db.payments.rows, row.chainId = .evm 1 := by
    decide +kernel
  obtain ⟨row, mem, isChain⟩ := paid
  obtain ⟨chainId, isChain', chain, memChain, block, memBlock, transfer, memTransfer, _⟩ := only row mem
  rw [isChain] at isChain'
  cases isChain'
  have isHistory : ((oneCoinPlatform false).nodes 1).history = [oneCoinChain false] := by
    rw [oneCoinPlatform, applyNext, Platform.nodes_perform_apply]
    rfl
  rw [isHistory] at memChain
  obtain rfl : chain = oneCoinChain false := List.mem_singleton.mp memChain
  rw [nothingMoved block memBlock] at memTransfer
  cases memTransfer

end EthPayServer.Pipeline
