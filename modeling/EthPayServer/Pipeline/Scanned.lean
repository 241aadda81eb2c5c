import EthPayServer.Evm.Exact
import EthPayServer.Pipeline.Confirmation

/-!
# One monitor on a chain that is never replaced

Blocks are announced in increasing order with gaps of any length, any request
may fail, and the watched set changes between blocks.  Each call that moves the
cursor passes one stretch of blocks under one snapshot of the watched set; the
stretches follow each other without gap or overlap, and what was announced of a
block is what the one stretch over it saw.
-/

namespace EthPayServer.Pipeline

open Lib Evm

/-- Blocks the cursor passed in one call, and the snapshot it took for them. -/
structure Pass where
  first : Nat
  last : Nat
  watched : WatchedSet
  /-- the blocks were read: with no request answered the call would have left the cursor -/
  isScan : Bool

def Pass.covers (pass : Pass) (number : Nat) : Bool := decide (pass.first ≤ number ∧ number ≤ pass.last)

/-- A monitor, the last announced number, and every stretch it passed, oldest first. -/
structure Follower where
  monitor : ChainMonitor
  notified : Option Nat
  passes : List Pass

inductive FollowerAction where
  | process (block : Block) (now : Time) (world : World EvmError Chain)
  | confirm (order : Nat → Nat) (now : Time) (world : World EvmError Chain)
  | watch (watched : WatchedAddress)
  | unwatch (address : Address) (tokenContract : Option Address)

namespace Follower

/-- The stretch a call for a block passed, if it moved the cursor. -/
def passed (before : ChainMonitor) (block : Block) (now : Time) (after : ChainMonitor) : List Pass :=
  if after.lastBlock = before.lastBlock then []
  else [⟨before.scanFrom block.number, after.lastBlock.getD 0, before.watched,
    (ChainMonitor.processBlock block.notification now ChainMonitor.unanswered 0 before).state.lastBlock =
      before.lastBlock⟩]

/-- A truthful source, and a block of the chain above every block announced before. -/
def Valid (chain : Chain) (follower : Follower) : FollowerAction → Prop
  | .process block _ world => Truthful (· = chain) world ∧ block ∈ chain.blocks ∧
    ∀ number, follower.notified = some number → number < block.number
  | .confirm _ _ world => Truthful (· = chain) world
  | _ => True

def perform (follower : Follower) : FollowerAction → Follower
  | .process block now world =>
    let after := (ChainMonitor.processBlock block.notification now world 0 follower.monitor).state
    ⟨after, some block.number, follower.passes ++ passed follower.monitor block now after⟩
  | .confirm order now world => { follower with
      monitor := (ChainMonitor.checkConfirmations order now world 0 follower.monitor).state }
  | .watch watched => { follower with monitor := follower.monitor.watch watched }
  | .unwatch address tokenContract =>
    { follower with monitor := follower.monitor.unwatch address tokenContract }

/-- A monitor of both kinds of transfers that has seen nothing yet. -/
structure IsFresh (follower : Follower) : Prop where
  native : follower.monitor.config.monitorNative = true
  erc20 : follower.monitor.config.monitorErc20 = true
  lastBlock : follower.monitor.lastBlock = none
  lastBlockHash : follower.monitor.lastBlockHash = none
  events : follower.monitor.events = []
  notified : follower.notified = none
  passes : follower.passes = []

def firstProcessed (follower : Follower) : Option Nat := follower.passes.head?.map Pass.first

end Follower

/-- The runs of one monitor over one fixed chain. -/
def follower (chain : Chain) : System Follower FollowerAction where
  initial := Follower.IsFresh
  step before action after := before.Valid chain action ∧ after = before.perform action

/-! ## Stretches without gap or overlap -/

/-- The stretches follow each other from a first block to a last one. -/
inductive Tiles (first : Nat) : List Pass → Nat → Prop
  | one (pass : Pass) (start : pass.first = first) (ordered : pass.first ≤ pass.last) :
      Tiles first [pass] pass.last
  | snoc {passes : List Pass} {last : Nat} (before : Tiles first passes last) (pass : Pass)
      (next : pass.first = last + 1) (ordered : pass.first ≤ pass.last) :
      Tiles first (passes ++ [pass]) pass.last

namespace Tiles

variable {first last : Nat} {passes : List Pass}

theorem head (tiles : Tiles first passes last) : passes.head?.map Pass.first = some first := by
  induction tiles with
  | one pass start ordered => simp [start]
  | @snoc earlier last before pass next ordered ih =>
    cases earlier with
    | nil => cases ih
    | cons head rest => exact ih

/-- A block behind the last one is in no stretch. -/
theorem filter_above (tiles : Tiles first passes last) {number : Nat} (above : last < number) :
    passes.filter (·.covers number) = [] := by
  induction tiles with
  | one pass start ordered => simp [Pass.covers, above]
  | snoc before pass next ordered ih =>
    have outside : pass.covers number = false := by simp [Pass.covers, above]
    rw [List.filter_append, ih (by omega)]
    simp [outside]

/-- Every block is in exactly one stretch. -/
theorem filter_covers (tiles : Tiles first passes last) {number : Nat} (low : first ≤ number)
    (high : number ≤ last) : ∃ pass ∈ passes, passes.filter (·.covers number) = [pass] := by
  induction tiles with
  | one pass start ordered =>
    have inside : pass.covers number = true := by simp [Pass.covers, start, low, high]
    exact ⟨pass, List.mem_singleton_self _, by simp [inside]⟩
  | @snoc earlier last before pass next ordered ih =>
    by_cases old : number ≤ last
    · obtain ⟨found, mem, only⟩ := ih old
      have outside : pass.covers number = false := by
        simp only [Pass.covers, decide_eq_false_iff_not]
        omega
      exact ⟨found, List.mem_append_left _ mem, by simp [List.filter_append, only, outside]⟩
    have inside : pass.covers number = true := by
      simp only [Pass.covers, decide_eq_true_eq]
      omega
    refine ⟨pass, List.mem_append_right _ (List.mem_singleton_self _), ?_⟩
    rw [List.filter_append, before.filter_above (by omega)]
    simp [inside]

end Tiles

/-! ## Every run -/

/-- What holds between any two calls. -/
structure Following (chain : Chain) (follower : Follower) : Prop where
  native : follower.monitor.config.monitorNative = true
  erc20 : follower.monitor.config.monitorErc20 = true
  notified : ∀ last, follower.monitor.lastBlock = some last →
    ∃ number, follower.notified = some number ∧ last ≤ number
  hash : ∀ last, follower.monitor.lastBlock = some last →
    follower.monitor.lastBlockHash = chain.hashAt? last ∧ (chain.blockAt? last).isSome
  unstarted : follower.monitor.lastBlock = none → follower.passes = []
  tiles : ∀ last, follower.monitor.lastBlock = some last → ∃ first, Tiles first follower.passes last
  announced : ∀ number, announcedIn number follower.monitor.events =
    (follower.passes.filter (·.covers number)).flatMap fun pass => chain.transfersTo pass.watched number
  scanned : ∀ pass ∈ follower.passes, pass.watched.rows ≠ [] → pass.isScan = true

section Step

variable {chain : Chain} {before : Follower}

theorem Following.of_initial {start : Follower} (fresh : start.IsFresh) : Following chain start where
  native := fresh.native
  erc20 := fresh.erc20
  notified := by simp [fresh.lastBlock]
  hash := by simp [fresh.lastBlock]
  unstarted := fun _ => fresh.passes
  tiles := by simp [fresh.lastBlock]
  announced := by simp [fresh.events, fresh.passes, announcedIn, announcements]
  scanned := by simp [fresh.passes]

/-- A step that neither moves the cursor nor announces anything keeps the account. -/
theorem Following.still (following : Following chain before) {after : ChainMonitor} {notified : Option Nat}
    (config : after.config = before.monitor.config) (cursor : after.lastBlock = before.monitor.lastBlock)
    (hash : after.lastBlockHash = before.monitor.lastBlockHash)
    (announced : ∀ number, announcedIn number after.events = announcedIn number before.monitor.events)
    (later : ∀ number, before.notified = some number → ∃ number', notified = some number' ∧ number ≤ number') :
    Following chain ⟨after, notified, before.passes⟩ where
  native := by rw [config]; exact following.native
  erc20 := by rw [config]; exact following.erc20
  notified := by
    intro last isLast
    obtain ⟨number, isNumber, bound⟩ := following.notified last (cursor.symm.trans isLast)
    obtain ⟨number', isNumber', le⟩ := later number isNumber
    exact ⟨number', isNumber', bound.trans le⟩
  hash := by
    intro last isLast
    rw [hash]
    exact following.hash last (cursor.symm.trans isLast)
  unstarted := fun none => following.unstarted (cursor.symm.trans none)
  tiles := fun last isLast => following.tiles last (cursor.symm.trans isLast)
  announced := fun number => (announced number).trans (following.announced number)
  scanned := following.scanned

/-- A call that passes a stretch puts it behind the others. -/
theorem Following.passed (following : Following chain before) {block : Block} {after : ChainMonitor}
    {stop : Nat} {isScan : Bool} (bound : stop ≤ block.number)
    (scanned : before.monitor.watched.rows ≠ [] → isScan = true)
    (ahead : ∀ lastNum, before.monitor.lastBlock = some lastNum → lastNum < block.number)
    (passed : ChainMonitor.PassedOver chain before.monitor.watched
      (before.monitor.scanFrom block.number) stop before.monitor after) :
    Following chain ⟨after, some block.number,
      before.passes ++ [⟨before.monitor.scanFrom block.number, stop, before.monitor.watched, isScan⟩]⟩ where
  native := by rw [passed.setup.config]; exact following.native
  erc20 := by rw [passed.setup.config]; exact following.erc20
  notified := by
    intro last isLast
    rw [passed.lastBlock] at isLast
    cases isLast
    exact ⟨block.number, rfl, bound⟩
  hash := by
    intro last isLast
    rw [passed.lastBlock] at isLast
    cases isLast
    exact ⟨passed.lastBlockHash, passed.known⟩
  unstarted := by
    intro none
    rw [passed.lastBlock] at none
    cases none
  tiles := by
    intro last isLast
    rw [passed.lastBlock] at isLast
    cases isLast
    cases cursor : before.monitor.lastBlock with
    | none =>
      rw [following.unstarted cursor]
      exact ⟨_, Tiles.one ⟨_, stop, before.monitor.watched, isScan⟩ rfl passed.ordered⟩
    | some lastNum =>
      obtain ⟨first, tiles⟩ := following.tiles lastNum cursor
      have next : before.monitor.scanFrom block.number = lastNum + 1 := by
        simp only [ChainMonitor.scanFrom, cursor]
        exact min_eq_left (ahead lastNum cursor)
      exact ⟨first, tiles.snoc ⟨_, stop, before.monitor.watched, isScan⟩ next passed.ordered⟩
  announced := by
    intro number
    rw [passed.announced, following.announced, List.filter_append, List.flatMap_append]
    congr 1
    by_cases inside : before.monitor.scanFrom block.number ≤ number ∧ number ≤ stop
    · simp [Pass.covers, inside]
    · simp [Pass.covers, inside]
  scanned := List.forall_mem_append.mpr ⟨following.scanned, List.forall_mem_singleton.mpr scanned⟩

theorem Following.process (following : Following chain before) {block : Block} {now : Time}
    {world : World EvmError Chain} (valid : before.Valid chain (.process block now world)) :
    Following chain (before.perform (.process block now world)) := by
  obtain ⟨truthful, mem, above⟩ := valid
  have ahead : ∀ lastNum, before.monitor.lastBlock = some lastNum → lastNum < block.number := by
    intro lastNum cursor
    obtain ⟨number, isNumber, bound⟩ := following.notified lastNum cursor
    have := above number isNumber
    omega
  simp only [Follower.perform]
  rcases ChainMonitor.processBlock_passes truthful now following.native following.erc20 mem ahead with
    stood | ⟨stop, bound, passed⟩
  · have nothing : Follower.passed before.monitor block now _ = [] := if_pos stood.lastBlock
    rw [nothing, List.append_nil]
    refine following.still stood.setup.config stood.lastBlock stood.lastBlockHash stood.announced ?_
    intro number isNumber
    exact ⟨block.number, rfl, (above number isNumber).le⟩
  have moved : (ChainMonitor.processBlock block.notification now world 0 before.monitor).state.lastBlock ≠
      before.monitor.lastBlock := by
    rw [passed.lastBlock]
    intro same
    have := ahead stop same.symm
    have := passed.ordered
    simp only [ChainMonitor.scanFrom, ← same] at this
    omega
  rw [Follower.passed, if_neg moved, passed.lastBlock]
  refine following.passed bound (fun watches => ?_) ahead passed
  exact decide_eq_true (ChainMonitor.processBlock_unanswered following.native following.erc20 watches _ now)

theorem Following.step {action : FollowerAction} (following : Following chain before)
    (valid : before.Valid chain action) : Following chain (before.perform action) := by
  have same : ∀ number, before.notified = some number →
      ∃ number', before.notified = some number' ∧ number ≤ number' :=
    fun number isNumber => ⟨number, isNumber, le_rfl⟩
  cases action with
  | process block now world => exact following.process valid
  | confirm order now world =>
    simp only [Follower.perform]
    rcases @Node.checkConfirmations_cases now world order ⟨chain, [chain], before.monitor⟩ valid with
      unchanged | confirmed
    · rw [unchanged]
      exact following
    rw [confirmed]
    refine following.still rfl rfl rfl (fun number => ?_) same
    simp only [ChainMonitor.confirmAt, announcedIn_append]
    rw [show announcedIn number (List.map _ _) = [] by simp [announcedIn, announcements, List.filterMap_map],
      List.append_nil]
  | watch watched => exact following.still rfl rfl rfl (fun _ => rfl) same
  | unwatch address tokenContract => exact following.still rfl rfl rfl (fun _ => rfl) same

end Step

/--
One stretch covers the block, a scan unless its snapshot is empty, and what was
announced of the block is what the snapshot asks for.
-/
structure PassedOnce (chain : Chain) (follower : Follower) (number : Nat) (pass : Pass) : Prop where
  only : follower.passes.filter (·.covers number) = [pass]
  scanned : pass.watched.rows ≠ [] → pass.isScan = true
  announced : ∃ block, chain.blockAt? number = some block ∧ announcedIn number follower.monitor.events =
    (block.sentTransfers.filter (Transfer.isTo pass.watched)).map Transfer.announced

/--
In every run the hash of the cursor is the hash of its block, and every block
from the first processed one to the cursor is in exactly one stretch, whose
snapshot decides which of the block's transfers were announced, each once.
-/
theorem passed_exactly_once (chain : Chain) {after : Follower} (reached : (follower chain).Reachable after) :
    (∀ last, after.monitor.lastBlock = some last →
      ∃ block, chain.blockAt? last = some block ∧ after.monitor.lastBlockHash = some block.hash) ∧
    ∀ first last, after.firstProcessed = some first → after.monitor.lastBlock = some last →
      ∀ number, first ≤ number → number ≤ last → ∃ pass, PassedOnce chain after number pass := by
  have following : Following chain after := by
    refine reached.invariant (I := Following chain) ?_ ?_
    · intro start fresh
      exact Following.of_initial fresh
    · rintro before action after _ following ⟨valid, rfl⟩
      exact following.step valid
  refine ⟨?_, ?_⟩
  · intro last isLast
    obtain ⟨isHash, isKnown⟩ := following.hash last isLast
    obtain ⟨block, here⟩ := Option.isSome_iff_exists.mp isKnown
    exact ⟨block, here, by rw [isHash, Chain.hashAt?, here]; rfl⟩
  intro first last isFirst isLast number low high
  obtain ⟨first', tiles⟩ := following.tiles last isLast
  have sameFirst : first' = first := by
    have := tiles.head
    rw [show after.passes.head?.map Pass.first = some first from isFirst] at this
    exact (Option.some.inj this).symm
  subst sameFirst
  obtain ⟨pass, mem, only⟩ := tiles.filter_covers low high
  obtain ⟨top, atTop⟩ := Option.isSome_iff_exists.mp (following.hash last isLast).2
  obtain ⟨block, here⟩ := Chain.exists_blockAt? (high.trans (Chain.le_head_of_blockAt? atTop))
  refine ⟨pass, only, following.scanned pass mem, block, here, ?_⟩
  rw [following.announced, only]
  simp [Chain.transfersTo, here]

/-! ## A monitor that watches, and one that does not -/

def startFollower : Follower := ⟨ChainMonitor.new 1 (ChainMonitorConfig.fromChain 2), none, []⟩

theorem startFollower_fresh : startFollower.IsFresh := ⟨rfl, rfl, rfl, rfl, rfl, rfl, rfl⟩

def followBlock (block : Block) : FollowerAction := .process block 0 (answering paidChain)

/-- Address 5 is watched, and the block behind the payment's is announced after it. -/
def followed : Follower :=
  ((startFollower.perform (.watch ⟨5, 1, none, none, 0⟩)).perform (followBlock paidBlock)).perform
    (followBlock ⟨2, 102, 101, []⟩)

theorem followed_reachable : (follower paidChain).Reachable followed := by
  have watched := (System.Reachable.of_initial (show (follower paidChain).initial _ from
    startFollower_fresh)).snoc
    (show (follower paidChain).step _ (.watch ⟨5, 1, none, none, 0⟩) _ from ⟨trivial, rfl⟩)
  have first := watched.snoc (show (follower paidChain).step _ (followBlock paidBlock) _ from
    ⟨⟨answering_truthful rfl, by decide, by rintro number ⟨⟩⟩, rfl⟩)
  refine first.snoc (show (follower paidChain).step _ (followBlock ⟨2, 102, 101, []⟩) _ from
    ⟨⟨answering_truthful rfl, by decide, ?_⟩, rfl⟩)
  rintro number ⟨⟩
  decide

/-- The payment's block is in one stretch, and the payment was announced once. -/
theorem passed_exactly_once_followed :
    (announcedIn 1 followed.monitor.events).length = 1 ∧ ∃ pass, PassedOnce paidChain followed 1 pass :=
  ⟨by decide +kernel, (passed_exactly_once paidChain followed_reachable).2 1 2 (by decide +kernel)
    (by decide +kernel) 1 le_rfl (by decide)⟩

/-- With nothing watched the block is passed, but no request is made and no scan covers it. -/
theorem passed_without_scan :
    (follower paidChain).Reachable (startFollower.perform (followBlock paidBlock)) ∧
      (startFollower.perform (followBlock paidBlock)).firstProcessed = some 1 ∧
      (startFollower.perform (followBlock paidBlock)).monitor.lastBlock = some 1 ∧
      (ChainMonitor.processBlock paidBlock.notification 0 (answering paidChain) 0
        startFollower.monitor).calls = 0 ∧
      ((startFollower.perform (followBlock paidBlock)).passes.filter
        fun pass => pass.isScan && pass.covers 1) = [] := by
  refine ⟨?_, by decide +kernel, by decide +kernel, by decide +kernel, ?_⟩
  · exact (System.Reachable.of_initial (show (follower paidChain).initial _ from
      startFollower_fresh)).snoc (show (follower paidChain).step _ (followBlock paidBlock) _ from
      ⟨⟨answering_truthful rfl, by decide, by rintro number ⟨⟩⟩, rfl⟩)
  · have none : ((startFollower.perform (followBlock paidBlock)).passes.filter
        fun pass => pass.isScan && pass.covers 1).length = 0 := by decide +kernel
    exact List.length_eq_zero_iff.mp none

end EthPayServer.Pipeline
