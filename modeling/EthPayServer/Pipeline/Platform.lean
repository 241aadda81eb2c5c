import EthPayServer.Pipeline.Node
import EthPayServer.Pipeline.Server

/-!
# The platform

One monitor per chain and one server over one database.  A monitor watches a
key because an invoice's option asks for payment there; its events are applied
in the order it sent them, each again until it succeeds and its cursor commits.
The chains' events may be interleaved in any way.
-/

namespace EthPayServer.Pipeline

open Lib Data Consumer Evm

structure Platform where
  /-- the monitor of each chain -/
  nodes : Nat → Node
  db : Db
  /-- the committed cursor of each chain: how many of its events are done -/
  cursors : Nat → Nat
  /-- every event whose application succeeded, oldest first -/
  log : List MonitorEvent

inductive PlatformAction where
  | node (chainId : Nat) (action : NodeAction)
  | admin (action : AdminAction)
  /-- apply the next event of a chain; the cursor commit after a success may fail too -/
  | apply (chainId : Nat) (delivery : Delivery) (world : World EventConsumerError Time)
      (commits : Bool)

def Expects (db : Db) (chainId : Nat) (invoiceId : Uuid) (key : WatchKey) : Prop :=
  ∃ option ∈ db.paymentOptions.rows, option.chainId = .evm chainId ∧ option.invoiceId = invoiceId ∧
    parseAddress option.paymentAddress.val = some key.1 ∧
    option.tokenAddress.bind (fun token => parseAddress token.val) = key.2

instance (db : Db) (chainId : Nat) (invoiceId : Uuid) (key : WatchKey) :
    Decidable (Expects db chainId invoiceId key) := by
  unfold Expects
  infer_instance

namespace Platform

def next? (platform : Platform) (chainId : Nat) : Option MonitorEvent :=
  (platform.nodes chainId).monitor.events[platform.cursors chainId]?

/-- What an action needs; a generated payment id is not in use. -/
def Valid (platform : Platform) : PlatformAction → Prop
  | .node chainId action => (platform.nodes chainId).Valid action ∧
    ∀ watched, action = .watch watched →
      Expects platform.db chainId watched.invoiceId (watched.address, watched.tokenContract)
  | .admin action => action.Valid
  | .apply _ delivery _ _ => delivery.paymentId ∉ platform.db.payments.keys

/-- How the application of an event ends. -/
def handled (divide : Division) (platform : Platform) (delivery : Delivery) (event : MonitorEvent)
    (world : World EventConsumerError Time) : Outcome EventConsumerError Db Unit :=
  handleEvent divide delivery event world 0 platform.db

def perform (divide : Division) (platform : Platform) : PlatformAction → Platform
  | .node chainId action => { platform with
      nodes := Function.update platform.nodes chainId ((platform.nodes chainId).perform action) }
  | .admin action => { platform with db := action.perform platform.db }
  | .apply chainId delivery world commits =>
    match platform.next? chainId with
    | none => platform
    | some event =>
      let outcome := platform.handled divide delivery event world
      if outcome.result = .ok () then
        { platform with
          db := outcome.state
          log := platform.log ++ [event]
          cursors := if commits then
              Function.update platform.cursors chainId (platform.cursors chainId + 1)
            else platform.cursors }
      else { platform with db := outcome.state }

structure IsInitial (platform : Platform) : Prop where
  fresh : ∀ chainId, (platform.nodes chainId).IsFresh
  chainId : ∀ chainId, (platform.nodes chainId).monitor.chainId = chainId
  watched : ∀ chainId, (platform.nodes chainId).monitor.watched = Table.empty
  db : platform.db = Db.empty
  cursors : ∀ chainId, platform.cursors chainId = 0
  log : platform.log = []

end Platform

def platform (divide : Division) : System Platform PlatformAction where
  initial := Platform.IsInitial
  step before action after := before.Valid action ∧ after = before.perform divide action

/-! ## What is quoted and watched -/

/-- Addresses can be read back, rates are not negative, and watches point at their options. -/
structure Catalog (db : Db) : Prop where
  addresses : ∀ option ∈ db.paymentOptions.rows, ∀ number, option.chainId = .evm number →
    ∃ address : Address, IsHexText 40 address.toNat option.paymentAddress.val
  rates : ∀ option ∈ db.paymentOptions.rows, ∀ rate ∈ option.rate, 0 ≤ rate.toRat
  watches : ∀ watched ∈ db.watchedAddresses, ∃ option ∈ db.paymentOptions.rows,
    option.id = watched.paymentOptionId ∧ option.chainId = watched.chainId ∧
      lower option.paymentAddress.val = lower watched.address.val ∧
      option.tokenAddress.map Subtype.val = watched.tokenAddress.map Subtype.val

def KeepsOptions (db db' : Db) : Prop := db.paymentOptions.rows ⊆ db'.paymentOptions.rows

variable {chainId : Nat}

theorem Expects.mono {db db' : Db} {invoiceId : Uuid} {key : WatchKey}
    (expects : Expects db chainId invoiceId key) (keeps : KeepsOptions db db') :
    Expects db' chainId invoiceId key := by
  obtain ⟨option, mem, rest⟩ := expects
  exact ⟨option, keeps mem, rest⟩

variable {event : MonitorEvent}

namespace Catalog

variable {db db' : Db}

theorem empty : Catalog Db.empty :=
  ⟨by simp [Db.empty], by simp [Db.empty], by simp [Db.empty]⟩

theorem of_same (catalog : Catalog db) (sameOptions : db'.paymentOptions = db.paymentOptions)
    (sameWatches : db'.watchedAddresses = db.watchedAddresses) : Catalog db' := by
  obtain ⟨addresses, rates, watches⟩ := catalog
  exact ⟨by rwa [sameOptions], by rwa [sameOptions], by rwa [sameWatches, sameOptions]⟩

theorem watches_optionAdded {data : PaymentOptionData}
    (watches : ∀ watched ∈ db.watchedAddresses, ∃ option ∈ db.paymentOptions.rows,
      option.id = watched.paymentOptionId ∧ option.chainId = watched.chainId ∧
        lower option.paymentAddress.val = lower watched.address.val ∧
        option.tokenAddress.map Subtype.val = watched.tokenAddress.map Subtype.val)
    (added : OptionAdded data db db') :
    ∀ watched ∈ db'.watchedAddresses, ∃ option ∈ db'.paymentOptions.rows,
      option.id = watched.paymentOptionId ∧ option.chainId = watched.chainId ∧
        lower option.paymentAddress.val = lower watched.address.val ∧
        option.tokenAddress.map Subtype.val = watched.tokenAddress.map Subtype.val := by
  obtain ⟨row, stores, isOptions⟩ := added.paymentOptions
  obtain ⟨watch, isOption, isChain, isAddress, isToken, isWatches⟩ := added.watchedAddresses
  have isNew : row ∈ db'.paymentOptions.rows := by
    rw [isOptions]
    exact List.mem_append_right _ (List.mem_singleton_self row)
  have sameText : lower row.paymentAddress.val = lower watch.address.val := by
    rw [stores.paymentAddress, isAddress]
  have sameToken : row.tokenAddress.map Subtype.val = watch.tokenAddress.map Subtype.val := by
    rw [stores.tokenAddress, isToken]
  intro watched mem
  rw [isWatches] at mem
  rcases mem_watchedRows mem with rfl | old | ⟨old, memOld, met, rfl⟩
  · exact ⟨row, isNew, stores.id.trans isOption.symm, stores.chainId.trans isChain.symm, sameText,
      sameToken⟩
  · obtain ⟨option, memOption, rest⟩ := watches watched old
    refine ⟨option, ?_, rest⟩
    rw [isOptions]
    exact List.mem_append_left _ memOption
  -- a watch that is pointed at the new option keeps its own spelling of the address
  obtain ⟨sameAddress, sameChain, sameToken'⟩ := WatchedAddressRow.same_of_meets met
  refine ⟨row, isNew, stores.id.trans isOption.symm, ?_, ?_, ?_⟩
  · exact stores.chainId.trans (isChain.symm.trans sameChain.symm)
  · exact sameText.trans sameAddress.symm
  · exact sameToken.trans (congrArg (Option.map Subtype.val) sameToken'.symm)

theorem optionAdded {data : PaymentOptionData} (catalog : Catalog db) (quoted : Quoted data)
    (added : OptionAdded data db db') : Catalog db' := by
  obtain ⟨row, stores, isOptions⟩ := added.paymentOptions
  refine ⟨?_, ?_, watches_optionAdded catalog.watches added⟩
  · intro option mem number isEvm
    rw [isOptions] at mem
    rcases List.mem_append.mp mem with old | new
    · exact catalog.addresses option old number isEvm
    · rw [List.mem_singleton.mp new] at isEvm ⊢
      rw [stores.paymentAddress]
      exact quoted.address number (stores.chainId ▸ isEvm)
  intro option mem rate isRate
  rw [isOptions] at mem
  rcases List.mem_append.mp mem with old | new
  · exact catalog.rates option old rate isRate
  rw [List.mem_singleton.mp new, stores.rate] at isRate
  obtain ⟨value, isValue, stored⟩ := Option.bind_eq_some_iff.mp isRate
  have positive := quoted.rate value isValue
  rw [Numeric.toRat_nonneg, Numeric.ofUnits?_eq_some.mp stored]
  exact Numeric.roundUnits_nonneg positive.le

theorem write (catalog : Catalog db) {divide : Division} (written : Write divide event db db') : Catalog db' :=
  catalog.of_same written.sameCatalog.paymentOptions written.sameCatalog.watchedAddresses

theorem admin (catalog : Catalog db) (written : AdminWrite db db') : Catalog db' := by
  cases written with
  | invoice added => exact catalog.of_same added.paymentOptions added.watchedAddresses
  | option data quoted added => exact catalog.optionAdded quoted added
  | statuses changed => exact catalog.of_same changed.paymentOptions changed.watchedAddresses
  | settings changed =>
    refine ⟨by rw [changed.paymentOptions]; exact catalog.addresses,
      by rw [changed.paymentOptions]; exact catalog.rates, ?_⟩
    intro watched mem
    obtain ⟨old, memOld, sameOption, sameChain, sameAddress, sameToken⟩ :=
      changed.watchedAddresses watched mem
    rw [changed.paymentOptions, sameOption, sameChain, sameAddress, sameToken]
    exact catalog.watches old memOld

end Catalog

theorem optionFor_some {db : Db} (catalog : Catalog db) {event : PaymentDetected}
    {tokenAddress : Option Text} {id : Uuid} (found : optionFor event tokenAddress db = some id) :
    ∃ option ∈ db.paymentOptions.rows, option.id = id ∧ isLateOption event tokenAddress option = true := by
  unfold optionFor at found
  cases watched : getPaymentOptionId (addressText event.paymentAddress) (.evm event.chainId)
      tokenAddress db with
  | some id' =>
    simp only [watched, Option.some.injEq] at found
    subst found
    obtain ⟨watch, isWatch, rfl⟩ := Option.map_eq_some_iff.mp watched
    have matched := List.find?_some isWatch
    simp only [decide_eq_true_eq] at matched
    obtain ⟨sameText, isChain, isToken, _⟩ := matched
    obtain ⟨option, mem, isId, sameChain, sameText', sameToken⟩ :=
      catalog.watches watch (List.mem_of_find?_eq_some isWatch)
    have sameLower := congrArg (Option.map lower) sameToken
    simp only [Option.map_map] at sameLower
    exact ⟨option, mem, isId, decide_eq_true ⟨sameText'.trans sameText, sameChain.trans isChain,
      sameLower.trans isToken⟩⟩
  | none =>
    simp only [watched] at found
    obtain ⟨option, isOption, rfl⟩ := Option.map_eq_some_iff.mp found
    have mem : option ∈ db.paymentOptions.rows := by
      have sorted := List.mem_of_find?_eq_some isOption
      rw [getForInvoice, List.mem_insertionSort] at sorted
      exact (List.mem_filter.mp sorted).1
    exact ⟨option, mem, rfl, List.find?_some isOption⟩

theorem keepsOptions_of_admin {db db' : Db} (written : AdminWrite db db') : KeepsOptions db db' := by
  cases written with
  | invoice added => exact fun _ mem => by rwa [added.paymentOptions]
  | option data quoted added =>
    obtain ⟨row, _, isOptions⟩ := added.paymentOptions
    rw [KeepsOptions, isOptions]
    exact List.subset_append_left _ _
  | statuses changed => exact fun _ mem => by rwa [changed.paymentOptions]
  | settings changed => exact fun _ mem => by rwa [changed.paymentOptions]

variable {condition : Platform → PlatformAction → Prop}

namespace Platform

variable {divide : Division} {before after : Platform} {action : PlatformAction}

theorem reachable_perform (reached : ((platform divide).restrict condition).Reachable before)
    (action : PlatformAction) (valid : before.Valid action) (meets : condition before action) :
    ((platform divide).restrict condition).Reachable (before.perform divide action) :=
  System.Reachable.snoc reached
    (show ((platform divide).restrict condition).step before action _ from ⟨⟨valid, rfl⟩, meets⟩)

theorem mem_of_next? {platform : Platform} (isNext : platform.next? chainId = some event) :
    event ∈ (platform.nodes chainId).monitor.events :=
  List.mem_of_getElem? isNext

/-- The application of an event leaves the database its handler leaves. -/
theorem db_perform_apply (before : Platform) (delivery : Delivery) (world : World EventConsumerError Time)
    (commits : Bool) (isNext : before.next? chainId = some event) :
    (before.perform divide (.apply chainId delivery world commits)).db =
      (before.handled divide delivery event world).state := by
  simp only [perform, isNext]
  split <;> rfl

theorem nodes_perform_apply (before : Platform) (chainId : Nat) (delivery : Delivery)
    (world : World EventConsumerError Time) (commits : Bool) :
    (before.perform divide (.apply chainId delivery world commits)).nodes = before.nodes := by
  simp only [perform]
  split
  · rfl
  · split <;> rfl

section

variable (step : (platform divide).step before action after)
include step

theorem log_of_step (mem : event ∈ after.log) :
    event ∈ before.log ∨ ∃ chainId delivery world commits,
      action = .apply chainId delivery world commits ∧ before.next? chainId = some event ∧
      (before.handled divide delivery event world).result = .ok () ∧
      after.db = (before.handled divide delivery event world).state := by
  obtain ⟨valid, rfl⟩ := step
  cases action with
  | node chainId action => exact .inl mem
  | admin action => exact .inl mem
  | apply chainId delivery world commits =>
    cases isNext : before.next? chainId with
    | none =>
      simp only [perform, isNext] at mem
      exact .inl mem
    | some next =>
      have isDb : (before.perform divide (.apply chainId delivery world commits)).db = _ :=
        db_perform_apply before delivery world commits isNext
      simp only [perform, isNext] at mem
      split at mem
      next done =>
        rcases List.mem_append.mp mem with earlier | new
        · exact .inl earlier
        · obtain rfl := List.mem_singleton.mp new
          exact .inr ⟨chainId, delivery, world, commits, rfl, isNext, done, isDb⟩
      · exact .inl mem

theorem db_of_step {I : Db → Prop}
    (onEvent : ∀ chainId event, event ∈ (before.nodes chainId).monitor.events →
      ∀ {db db'}, Write divide event db db' → I db → I db')
    (onAdmin : ∀ {db db'}, AdminWrite db db' → I db → I db') (start : I before.db) : I after.db := by
  obtain ⟨valid, rfl⟩ := step
  cases action with
  | node chainId action => exact start
  | admin action => exact action.perform_preserves valid onAdmin start
  | apply chainId delivery world commits =>
    cases isNext : before.next? chainId with
    | none =>
      simp only [perform, isNext]
      exact start
    | some event =>
      rw [db_perform_apply before delivery world commits isNext]
      have writes : Proc.Writes (Write divide event) (handleEvent divide delivery event) :=
        handleEvent_writes delivery event
      exact writes.preserves (onEvent chainId event (mem_of_next? isNext)) world 0 start

theorem keepsOptions_of_step : KeepsOptions before.db after.db := by
  refine db_of_step (I := KeepsOptions before.db) step ?_ ?_ (List.Subset.refl _)
  · intro _ _ _ db db' write keeps
    rw [KeepsOptions, write.sameCatalog.paymentOptions]
    exact keeps
  · intro db db' write keeps
    exact List.Subset.trans keeps (keepsOptions_of_admin write)

/-- A monitor of the platform takes a step or stays as it is. -/
theorem node_of_step (chainId : Nat) :
    after.nodes chainId = before.nodes chainId ∨ ∃ nodeAction,
      action = .node chainId nodeAction ∧ (before.nodes chainId).Valid nodeAction ∧
      after.nodes chainId = (before.nodes chainId).perform nodeAction ∧
      ∀ watched, nodeAction = .watch watched →
        Expects before.db chainId watched.invoiceId (watched.address, watched.tokenContract) := by
  obtain ⟨valid, rfl⟩ := step
  cases action with
  | admin action => exact .inl rfl
  | apply chainId' delivery world commits => exact .inl (by rw [nodes_perform_apply])
  | node chainId' nodeAction =>
    by_cases same : chainId = chainId'
    · subst same
      exact .inr ⟨nodeAction, rfl, valid.1, by simp [perform], valid.2⟩
    · exact .inl (by simp [perform, same])

theorem expects_of_step {invoiceId : Uuid} {key : WatchKey} (expects : Expects before.db chainId invoiceId key)
    : Expects after.db chainId invoiceId key :=
  expects.mono (keepsOptions_of_step step)

end

/--
The monitors watch what options ask for, and announce payments to keys they
watch.
-/
structure Grounded (platform : Platform) : Prop where
  chainId : ∀ chainId, (platform.nodes chainId).monitor.chainId = chainId
  current : ∀ chainId, (platform.nodes chainId).chain ∈ (platform.nodes chainId).history
  watched : ∀ chainId, ∀ entry ∈ (platform.nodes chainId).monitor.watched.rows,
    Expects platform.db chainId entry.2.invoiceId entry.1
  detected : ∀ chainId event, .paymentDetected event ∈ (platform.nodes chainId).monitor.events →
    event.chainId = chainId ∧
      Expects platform.db chainId event.invoiceId (event.paymentAddress, event.tokenAddress)
  reorgs : ∀ chainId report, .reorgDetected report ∈ (platform.nodes chainId).monitor.events →
    report.chainId = chainId
  catalog : Catalog platform.db

theorem Grounded.of_initial (start : before.IsInitial) : before.Grounded := by
  refine ⟨start.chainId, ?_, ?_, ?_, ?_, by rw [start.db]; exact Catalog.empty⟩
  · intro chainId
    rw [(start.fresh chainId).history]
    exact List.mem_singleton_self _
  · intro chainId entry mem
    rw [start.watched chainId] at mem
    cases mem
  · intro chainId event mem
    rw [(start.fresh chainId).events] at mem
    cases mem
  · intro chainId report mem
    rw [(start.fresh chainId).events] at mem
    cases mem

theorem Grounded.step (grounded : before.Grounded) (step : (platform divide).step before action after) :
    after.Grounded := by
  refine ⟨?_, ?_, ?_, ?_, ?_, ?_⟩
  · intro chainId
    rcases node_of_step step chainId with same | ⟨nodeAction, _, valid, isNode, _⟩
    · rw [same]
      exact grounded.chainId chainId
    · rw [isNode, (Node.changed_of_valid valid).chainId]
      exact grounded.chainId chainId
  · intro chainId
    rcases node_of_step step chainId with same | ⟨nodeAction, _, valid, isNode, _⟩
    · rw [same]
      exact grounded.current chainId
    · rw [isNode]
      exact Node.chain_mem_perform (grounded.current chainId) nodeAction
  · intro chainId entry mem
    rcases node_of_step step chainId with same | ⟨nodeAction, _, valid, isNode, expected⟩
    · rw [same] at mem
      exact expects_of_step step (grounded.watched chainId entry mem)
    · rw [isNode] at mem
      rcases (Node.changed_of_valid valid).watched entry mem with old | ⟨watched, isWatch, rfl⟩
      · exact expects_of_step step (grounded.watched chainId entry old)
      · exact expects_of_step step (expected watched isWatch)
  · intro chainId event mem
    have old : ∀ event, .paymentDetected event ∈ (before.nodes chainId).monitor.events →
        event.chainId = chainId ∧
          Expects after.db chainId event.invoiceId (event.paymentAddress, event.tokenAddress) := by
      intro event mem
      obtain ⟨isChain, expects⟩ := grounded.detected chainId event mem
      exact ⟨isChain, expects_of_step step expects⟩
    rcases node_of_step step chainId with same | ⟨nodeAction, _, valid, isNode, _⟩
    · rw [same] at mem
      exact old event mem
    rw [isNode] at mem
    refine Node.detected_of_step valid ?_ old mem
    intro block now during world event _ sound
    obtain ⟨isChain, watch, memWatch, isKey, isInvoice⟩ := sound.watched
    have expects := grounded.watched chainId watch memWatch
    rw [isKey, isInvoice] at expects
    exact ⟨isChain.trans (grounded.chainId chainId), expects_of_step step expects⟩
  · intro chainId report mem
    rcases node_of_step step chainId with same | ⟨nodeAction, _, valid, isNode, _⟩
    · rw [same] at mem
      exact grounded.reorgs chainId report mem
    rw [isNode] at mem
    obtain ⟨sent, isSent, sentBy⟩ := (Node.changed_of_valid valid).events
    rw [isSent] at mem
    rcases List.mem_append.mp mem with earlier | new
    · exact grounded.reorgs chainId report earlier
    · obtain ⟨_, _, _, _, _, isReport⟩ := sentBy.reorg report new
      exact isReport.chainId.trans (grounded.chainId chainId)
  · exact db_of_step step (fun _ _ _ _ _ write catalog => catalog.write write)
      (fun write catalog => catalog.admin write) grounded.catalog

theorem grounded (reached : ((platform divide).restrict condition).Reachable after) : after.Grounded := by
  refine reached.invariant (I := Grounded) Grounded.of_initial ?_
  intro before action after _ grounded step
  exact grounded.step step.1

end Platform

end EthPayServer.Pipeline
