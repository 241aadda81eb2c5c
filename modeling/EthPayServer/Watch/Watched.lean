import EthPayServer.Watch.Cleanup
import EthPayServer.Consumer.Redelivery

/-!
# Payable invoices are watched

Over any sequence of invoice creations, event applications, expiries,
cancellations and cleanup passes the watch of a payable invoice is on, unless a
cleanup pass switched it off while the invoice was paid and its payments out of
grace, and a reorganisation reopened the invoice afterwards.  Options of
different invoices that share an address share its watch; nothing is said about
those.
-/

namespace EthPayServer.Watch

open Lib Data Consumer
open Evm (Time Uuid MonitorEvent ReorgDetected)
open Api (StatusCode isPayable cancelInvoice)

/-! ## Watches by what they watch -/

/-- An address of a chain and a token there, in any letter case. -/
abbrev Site : Type := Text × ChainId × Option Text

def siteAt (address : Text) (chainId : ChainId) (tokenAddress : Option Text) : Site :=
  (lower address, chainId, tokenAddress.map lower)

def watchSite (row : WatchedAddressRow) : Site :=
  siteAt row.address.val row.chainId (row.tokenAddress.map Subtype.val)

def optionSite (option : PaymentOption) : Site :=
  siteAt option.paymentAddress.val option.chainId (option.tokenAddress.map Subtype.val)

def HasWatch (db : Db) (site : Site) : Prop :=
  ∃ row ∈ db.watchedAddresses, watchSite row = site

def Watched (db : Db) (site : Site) : Prop :=
  HasWatch db site ∧ ∀ row ∈ db.watchedAddresses, watchSite row = site → row.isActive = true

instance (db : Db) (site : Site) : Decidable (Watched db site) := by
  unfold Watched HasWatch
  infer_instance

def Unshared (db : Db) (option : PaymentOption) : Prop :=
  ∀ other ∈ db.paymentOptions.rows, optionSite other = optionSite option →
    other.invoiceId = option.invoiceId

instance (db : Db) (option : PaymentOption) : Decidable (Unshared db option) := by
  unfold Unshared
  infer_instance

def PointsAtOptions (db : Db) : Prop :=
  ∀ watched ∈ db.watchedAddresses, ∃ option ∈ db.paymentOptions.rows,
    option.id = watched.paymentOptionId ∧ option.chainId = watched.chainId ∧
      lower option.paymentAddress.val = lower watched.address.val ∧
      option.tokenAddress.map Subtype.val = watched.tokenAddress.map Subtype.val

variable {row : WatchedAddressRow}

theorem PointsAtOptions.site (points : PointsAtOptions db) (mem : row ∈ db.watchedAddresses)
    {option : PaymentOption} (found : getPaymentOption row.paymentOptionId db = some option) :
    option ∈ db.paymentOptions.rows ∧ optionSite option = watchSite row := by
  obtain ⟨memOption, isId⟩ := Table.find?_eq_some.mp found
  obtain ⟨other, memOther, isOther, sameChain, sameText, sameToken⟩ := points row mem
  obtain rfl := db.paymentOptions.eq_of_key memOption memOther (isId.trans isOther.symm)
  exact ⟨memOption, by rw [optionSite, watchSite, siteAt, siteAt, sameText, sameChain, sameToken]⟩

/-! ## Creating an invoice -/

theorem exists_watchedRows (row : WatchedAddressRow) (rows : List WatchedAddressRow) :
    ∃ other ∈ watchedRows row rows, watchSite other = watchSite row := by
  unfold watchedRows
  split
  next known =>
    obtain ⟨old, memOld, met⟩ := List.any_eq_true.mp known
    obtain ⟨sameAddress, sameChain, sameToken⟩ := WatchedAddressRow.same_of_meets met
    refine ⟨row.repoint old, List.mem_map.mpr ⟨old, memOld, if_pos met⟩, ?_⟩
    change siteAt old.address.val old.chainId (old.tokenAddress.map Subtype.val) = _
    rw [watchSite, siteAt, siteAt, sameAddress, sameChain, sameToken]
  · exact ⟨row, List.mem_append_right _ (List.mem_singleton_self row), rfl⟩

variable {rows : List WatchedAddressRow}

/-- An upsert moves no watch to another site. -/
theorem watchedRows_sites {site : Site} (present : ∃ old ∈ rows, watchSite old = site) :
    ∃ other ∈ watchedRows row rows, watchSite other = site := by
  obtain ⟨old, mem, isSite⟩ := present
  unfold watchedRows
  split
  · refine ⟨_, List.mem_map_of_mem mem, ?_⟩
    split <;> exact isSite
  · exact ⟨old, List.mem_append_left _ mem, isSite⟩

theorem mem_of_off_watchedRows {other : WatchedAddressRow} (active : row.isActive = true)
    (mem : other ∈ watchedRows row rows) (off : other.isActive = false) : other ∈ rows := by
  rcases mem_watchedRows mem with rfl | old | ⟨old, _, _, rfl⟩
  · rw [active] at off
    cases off
  · exact old
  · cases off

/-- What the transaction that creates an invoice leaves behind. -/
structure Extended (id : Uuid) (base db : Db) : Prop where
  points : PointsAtOptions db
  kept : ∀ option ∈ base.paymentOptions.rows, option ∈ db.paymentOptions.rows
  options : ∀ option ∈ db.paymentOptions.rows, option ∈ base.paymentOptions.rows ∨
    option.invoiceId = id ∧ HasWatch db (optionSite option)
  sites : ∀ site, HasWatch base site → HasWatch db site
  off : ∀ row ∈ db.watchedAddresses, row.isActive = false → row ∈ base.watchedAddresses
  invoices : ∀ invoice ∈ db.invoices.rows, invoice ∈ base.invoices.rows ∨ invoice.id = id

variable {invoice : InvoiceData}

theorem Extended.insertInvoice {base db db' : Db} (done : insertInvoice invoice db = .ok db')
    (extended : Extended invoice.id base db) : Extended invoice.id base db' := by
  obtain ⟨amount, _, inserted⟩ := bind_eq_ok.mp done
  dsimp only at inserted
  split at inserted
  · cases inserted
    refine ⟨extended.points, extended.kept, extended.options, extended.sites, extended.off, ?_⟩
    intro row mem
    rcases List.mem_append.mp mem with old | new
    · exact extended.invoices row old
    · exact .inr (by rw [List.mem_singleton.mp new])
  · cases inserted

variable {invoiceId id : Uuid}

theorem Extended.option {option : PaymentOptionData} {base db quoted db' : Db}
    (own : option.invoiceId = invoice.id) (stored : insertPaymentOption option db = .ok quoted)
    (pointed : upsertWatchedAddress invoice option quoted = .ok db') (extended : Extended invoice.id base db) :
    Extended invoice.id base db' := by
  have added := optionAdded_of_ok stored pointed
  obtain ⟨row, stores, isOptions⟩ := added.paymentOptions
  obtain ⟨_, _, _, _, _, sameWatches⟩ := insertPaymentOption_ok stored
  obtain ⟨watch, _, isChain, isAddress, isToken, ⟨active, _⟩, isWatches, _, _, sameOptions⟩ :=
    upsertWatchedAddress_ok pointed
  rw [sameWatches] at isWatches
  have keepsSites : ∀ site, HasWatch db site → HasWatch db' site := by
    intro site present
    rw [HasWatch, isWatches]
    exact watchedRows_sites present
  refine ⟨Pipeline.Catalog.watches_optionAdded extended.points added, ?_, ?_,
    fun site present => keepsSites site (extended.sites site present), ?_, ?_⟩
  · intro other mem
    rw [isOptions]
    exact List.mem_append_left _ (extended.kept other mem)
  · intro other mem
    rw [isOptions] at mem
    rcases List.mem_append.mp mem with old | new
    · exact (extended.options other old).imp_right fun facts => ⟨facts.1, keepsSites _ facts.2⟩
    obtain rfl := List.mem_singleton.mp new
    refine .inr ⟨stores.invoiceId.trans own, ?_⟩
    rw [HasWatch, isWatches, optionSite, siteAt, stores.paymentAddress, stores.chainId,
      stores.tokenAddress, ← isAddress, ← isChain, ← isToken]
    exact exists_watchedRows watch db.watchedAddresses
  · intro other mem off
    rw [isWatches] at mem
    exact extended.off other (mem_of_off_watchedRows active mem off) off
  · intro other mem
    rw [added.invoices] at mem
    exact extended.invoices other mem

variable {options : List PaymentOptionData}

theorem extended_of_ok {db db' : Db} (done : createInvoiceWithOptions invoice options db = .ok db')
    (own : ∀ option ∈ options, option.invoiceId = invoice.id) (points : PointsAtOptions db) :
    Extended invoice.id db db' :=
  createInvoiceWithOptions_statements done
    ⟨points, fun _ mem => mem, fun _ => .inl, fun _ present => present, fun _ mem _ => mem, fun _ => .inl⟩
    Extended.insertInvoice fun option mem _ _ _ => Extended.option (own option mem)

theorem fresh_of_ok {db db' : Db} (done : createInvoiceWithOptions invoice options db = .ok db') :
    invoice.id ∉ db.invoices.keys := by
  obtain ⟨created, inserted, _⟩ := bind_eq_ok.mp done
  obtain ⟨amount, _, inserted⟩ := bind_eq_ok.mp inserted
  dsimp only at inserted
  split at inserted
  next fresh => exact fresh
  · cases inserted

/-! ## Writes of statuses -/

structure StatusesOnly (base db : Db) : Prop where
  paymentOptions : db.paymentOptions = base.paymentOptions
  watchedAddresses : db.watchedAddresses = base.watchedAddresses
  stillOpen : ∀ invoice ∈ db.invoices.rows, isClosed invoice.status = false →
    ∃ old ∈ base.invoices.rows, old.id = invoice.id ∧ isClosed old.status = false

variable {status : InvoiceStatus}

namespace StatusesOnly

variable {base db db' : Db}

theorem refl (db : Db) : StatusesOnly db db :=
  ⟨rfl, rfl, fun invoice mem isOpen => ⟨invoice, mem, rfl, isOpen⟩⟩

theorem trans (first : StatusesOnly base db) (second : StatusesOnly db db') : StatusesOnly base db' := by
  refine ⟨second.paymentOptions.trans first.paymentOptions,
    second.watchedAddresses.trans first.watchedAddresses, ?_⟩
  intro invoice mem isOpen
  obtain ⟨mid, memMid, sameMid, openMid⟩ := second.stillOpen invoice mem isOpen
  obtain ⟨old, memOld, sameOld, openOld⟩ := first.stillOpen mid memMid openMid
  exact ⟨old, memOld, sameOld.trans sameMid, openOld⟩

theorem map (only : StatusesOnly base db) {change : Invoice → Invoice}
    (sameOptions : db'.paymentOptions = db.paymentOptions)
    (sameWatches : db'.watchedAddresses = db.watchedAddresses)
    (isInvoices : db'.invoices.rows = db.invoices.rows.map change)
    (sameId : ∀ invoice, (change invoice).id = invoice.id)
    (stays : ∀ invoice ∈ db.invoices.rows, isClosed (change invoice).status = false →
      isClosed invoice.status = false) : StatusesOnly base db' := by
  refine ⟨sameOptions.trans only.paymentOptions, sameWatches.trans only.watchedAddresses, ?_⟩
  intro invoice mem isOpen
  rw [isInvoices] at mem
  obtain ⟨old, memOld, rfl⟩ := List.mem_map.mp mem
  rw [sameId]
  exact only.stillOpen old memOld (stays old memOld isOpen)

theorem recorded {now : Time} {row : Payment} {rows : List Payment} (only : StatusesOnly base db)
    (recorded : Recorded now row rows db db') : StatusesOnly base db' := by
  obtain ⟨total, _, isInvoices⟩ := recorded.invoices
  refine only.map recorded.catalog.paymentOptions recorded.catalog.watchedAddresses isInvoices
    (Invoice.id_onPayment now row total) ?_
  intro invoice _ isOpen
  unfold Invoice.onPayment at isOpen
  split at isOpen
  · dsimp only at isOpen
    split at isOpen
    next pending => rw [pending.1]; rfl
    · exact isOpen
  · exact isOpen

theorem statusWritten (only : StatusesOnly base db)
    (guarded : isClosed status = false → ∀ invoice ∈ db.invoices.rows, invoice.id = id →
      isClosed invoice.status = false) (written : StatusWritten id status db db') : StatusesOnly base db' := by
  refine only.map written.catalog.paymentOptions written.catalog.watchedAddresses written.invoices
    (Invoice.id_withStatus id status) ?_
  intro invoice mem isOpen
  unfold Invoice.withStatus at isOpen
  split at isOpen
  next here => exact guarded isOpen invoice mem here
  · exact isOpen

end StatusesOnly

theorem open_of_settlement (decided : settlement invoiceId db = some status) (isOpen : isClosed status = false) :
    ∀ invoice ∈ db.invoices.rows, invoice.id = invoiceId → isClosed invoice.status = false := by
  obtain ⟨settled, _, _, found, _, _, settles⟩ := settlement_some decided
  rintro invoice mem rfl
  have isSettled : some invoice = some settled := (Table.find?_of_mem mem).symm.trans found
  cases isSettled
  rcases settledStatus_some settles with ⟨underWay | underWay, _⟩ | ⟨_, rfl⟩
  · rw [underWay]
    rfl
  · rw [underWay]
    rfl
  · cases isOpen

variable {divide : Division}

theorem StatusesOnly.write {event : MonitorEvent} {base db db' : Db} (only : StatusesOnly base db)
    (notReorg : ∀ report, event ≠ .reorgDetected report) (write : Write divide event db db') :
    StatusesOnly base db' := by
  rcases write.kinds with ⟨_, _, _, recorded⟩ | ⟨_, _, _, _, _, recorded⟩ |
    ⟨_, _, written, ⟨_, _, decided⟩ | ⟨⟨report, isReorg⟩, _⟩⟩ | same
  · exact only.recorded recorded
  · exact only.recorded recorded
  · exact only.statusWritten (open_of_settlement decided) written
  · exact absurd isReorg (notReorg report)
  · refine ⟨same.catalog.paymentOptions.trans only.paymentOptions,
      same.catalog.watchedAddresses.trans only.watchedAddresses, ?_⟩
    rw [same.invoices]
    exact only.stillOpen

/-- A retraction writes the status of open invoices only. -/
theorem handleReorgDetected_only (delivery : Delivery) (report : ReorgDetected)
    (world : World EventConsumerError Time) (db : Db) :
    StatusesOnly db (handleReorgDetected delivery report world 0 db).state := by
  by_cases verifiable : report.survivorsVerifiable = true
  · obtain ⟨marked, written, front, state, _, _⟩ := retraction_front delivery world verifiable
    obtain ⟨received, isInvoices, _⟩ := state.invoices
    refine (StatusesOnly.refl db).map state.catalog.paymentOptions state.catalog.watchedAddresses
      isInvoices (fun _ => rfl) fun invoice mem stays => ?_
    by_cases isWritten : invoice.id ∈ written
    · obtain ⟨_, _, _, isOpen⟩ := front.mem_written isWritten
      simpa [isOpen_iff (Table.find?_of_mem mem)] using isOpen
    · simpa [retractedInvoice, isWritten] using stays
  · rw [handleReorgDetected, if_neg verifiable]
    exact StatusesOnly.refl db

/-- However the application of an event ends, it opens no closed invoice and touches no watch. -/
theorem handleEvent_only (divide : Division) (delivery : Delivery) (event : MonitorEvent)
    (world : World EventConsumerError Time) (db : Db) :
    StatusesOnly db (handleEvent divide delivery event world 0 db).state := by
  have others : (∀ report, event ≠ .reorgDetected report) →
      StatusesOnly db (handleEvent divide delivery event world 0 db).state := fun notReorg =>
    (handleEvent_writes delivery event).preserves (fun write only => only.write notReorg write) world 0
      (StatusesOnly.refl db)
  cases event with
  | paymentDetected event => exact others (by simp)
  | paymentConfirmed event => exact others (by simp)
  | notice _ => exact others (by simp)
  | reorgDetected report => exact handleReorgDetected_only delivery report world db

/-- A contract whose calls only write statuses. -/
def statusContract (ε : Type) : Thread.Contract Time ε Db where
  legal _ _ := True
  invariant _ := True
  rely _ _ := True
  guarantee := StatusesOnly
  assumes := False

theorem statusesOnly_alone {ε α : Type} {thread : Thread Time ε Db α} {world : World ε Time}
    (writes : thread.Writes StatusesOnly False) : StatusesOnly db (thread.toProc world 0 db).state := by
  have meets : thread.Respects (statusContract ε) db :=
    writes.meets (fun _ only => only) db
  exact meets.alone id (fun _ => trivial) (fun _ _ => trivial) (fun _ => trivial)
    (fun first second => first.trans second) (StatusesOnly.refl db) 0

/-- A cancellation that nothing comes between. -/
def cancelAlone (invoiceId : Uuid) : Thread Time StatusCode Db Invoice :=
  cancelInvoice (fun _ _ _ => True) invoiceId

theorem cancelAlone_only (invoiceId : Uuid) (world : World StatusCode Time) (db : Db) :
    StatusesOnly db ((cancelAlone invoiceId).toProc world 0 db).state := by
  refine statusesOnly_alone (Api.cancelInvoice_writes StatusesOnly.refl (fun _ _ _ => .inr trivial) ?_)
  intro seen db db' _ _ done
  refine (StatusesOnly.refl db).statusWritten ?_ (updateStatus_ok done)
  rintro ⟨⟩

theorem expire_only (id : Uuid) (db : Db) : StatusesOnly db (expire id db) := by
  refine ⟨rfl, rfl, ?_⟩
  intro invoice mem isOpen
  rcases mem_expire mem with old | isExpired
  · exact ⟨invoice, old, rfl, isOpen⟩
  · rw [isExpired] at isOpen
    cases isOpen

theorem checkExpired_only {ε : Type} (world : World ε Time) (db : Db) :
    StatusesOnly db (Api.checkExpired.toProc world 0 db).state :=
  statusesOnly_alone (Api.checkExpired_writes StatusesOnly.refl expire_only)

/-! ## A cleanup pass -/

variable {info : CleanupAddressInfo}

section Cleanup

variable (config : CleanupConfig) (world : World CleanupError Time)

/-- The pass found no payment of the invoice confirmed within its grace period. -/
def OutOfGrace (db : Db) (invoiceId : Uuid) : Prop :=
  ∃ i now, world i = .ok now ∧
    config.withinPaidGracePeriod now (getPaymentsForInvoice invoiceId db) = some false

/-- What the pass may switch a watch off for: an option of an invoice that is done with. -/
def Released (db : Db) (site : Site) : Prop :=
  ∃ invoice ∈ db.invoices.rows, ∃ option ∈ db.paymentOptions.rows, option.invoiceId = invoice.id ∧
    optionSite option = site ∧ (invoice.status = .expired ∨ invoice.status = .cancelled ∨
      invoice.status = .paid ∧ OutOfGrace config world db invoice.id)

/-- The database in the middle of a pass: nothing but watches changed, and those only as they may. -/
structure Cleaned (base db : Db) : Prop where
  invoices : db.invoices = base.invoices
  payments : db.payments = base.payments
  paymentOptions : db.paymentOptions = base.paymentOptions
  points : PointsAtOptions db
  watches : ∀ site, Watched base site → Watched db site ∨ Released config world base site

variable {config world} {base db : Db}

theorem watchSite_of_isDeactivated {address : Text} {chainId : ChainId} {tokenAddress : Option Text}
    (hit : Pipeline.isDeactivated address chainId tokenAddress row = true) :
    watchSite row = siteAt address chainId tokenAddress := by
  obtain ⟨sameText, sameChain, sameToken, _⟩ := of_decide_eq_true hit
  rw [watchSite, siteAt, siteAt, sameText, sameChain, Option.map_map]
  exact congrArg (fun token => (lower address, chainId, token)) sameToken

/-- A switch that is released keeps the pass within what it may do. -/
theorem Cleaned.deactivate (cleaned : Cleaned config world base db) {address : Text} {chainId : ChainId}
    {tokenAddress : Option Text} (released : Released config world base (siteAt address chainId tokenAddress)) :
    Cleaned config world base (deactivate address chainId tokenAddress db).2 := by
  refine ⟨cleaned.invoices, cleaned.payments, cleaned.paymentOptions, ?_, ?_⟩
  · intro row mem
    obtain ⟨old, memOld, rfl⟩ := List.mem_map.mp mem
    obtain ⟨option, memOption, facts⟩ := cleaned.points old memOld
    refine ⟨option, memOption, ?_⟩
    split <;> exact facts
  intro site watched
  rcases cleaned.watches site watched with ⟨⟨row, mem, isSite⟩, on⟩ | already
  · by_cases hit : ∃ row ∈ db.watchedAddresses, watchSite row = site ∧
        Pipeline.isDeactivated address chainId tokenAddress row = true
    · obtain ⟨row, _, isSite, hit⟩ := hit
      rw [← isSite, watchSite_of_isDeactivated hit]
      exact .inr released
    have untouched : ∀ row ∈ db.watchedAddresses, watchSite row = site →
        ¬ Pipeline.isDeactivated address chainId tokenAddress row = true :=
      fun row mem isSite isHit => hit ⟨row, mem, isSite, isHit⟩
    refine .inl ⟨⟨row, List.mem_map.mpr ⟨row, mem, if_neg (untouched row mem isSite)⟩, isSite⟩, ?_⟩
    intro after memAfter isAfter
    obtain ⟨old, memOld, rfl⟩ := List.mem_map.mp memAfter
    have sameSite : watchSite old = site := by
      split at isAfter <;> exact isAfter
    rw [if_neg (untouched old memOld sameSite)]
    exact on old memOld sameSite
  · exact .inr already

theorem mem_watchesOf {invoices : List Invoice} (points : PointsAtOptions db)
    (mem : info ∈ watchesOf invoices db) :
    ∃ invoice ∈ invoices, ∃ option ∈ db.paymentOptions.rows, option.invoiceId = invoice.id ∧
      info.invoiceId = invoice.id ∧
      optionSite option = siteAt info.address.val info.chainId (info.tokenAddress.map Subtype.val) := by
  obtain ⟨invoice, memInvoice, listed⟩ := List.mem_flatMap.mp mem
  obtain ⟨row, memRow, isInfo⟩ := List.mem_filterMap.mp listed
  obtain ⟨option, found, isInfo⟩ := Option.bind_eq_some_iff.mp isInfo
  split at isInfo
  next here =>
    cases isInfo
    obtain ⟨memOption, isSite⟩ := points.site memRow found
    exact ⟨invoice, memInvoice, option, memOption, here.2, here.2, isSite⟩
  · cases isInfo

/-- Run alone, a part of the pass keeps within what the pass may do. -/
abbrev Cleans (config : CleanupConfig) (world : World CleanupError Time) (base db : Db)
    (part : CleanupM α) : Prop :=
  part.Meets (.alone world (Cleaned config world base)) (fun _ => Cleaned config world base)
    (fun _ => Cleaned config world base) db

theorem unwatch_cleans
    (released : Released config world base
      (siteAt info.address.val info.chainId (info.tokenAddress.map Subtype.val)))
    (cleaned : Cleaned config world base db) :
    Cleans config world base db (do let _ ← (unwatchAndDeactivate info).attempt; pure ()) := by
  rw [Cleans, Thread.meets_bind, Thread.meets_attempt]
  change Cleans config world base db (unwatchAndDeactivate info)
  unfold Cleans unwatchAndDeactivate
  split
  · exact cleaned
  split
  · exact cleaned
  rw [Thread.meets_bind]
  refine .alone_query (fun cleaned => ?_) id
  rw [Thread.meets_bind]
  refine .alone_statement ?_ id
  rintro i now result db' cleaned - ⟨⟩
  exact ⟨cleaned.deactivate released, cleaned.deactivate released⟩

theorem cleanupListed_cleans {addresses : List CleanupAddressInfo}
    (released : ∀ info ∈ addresses, Released config world base
      (siteAt info.address.val info.chainId (info.tokenAddress.map Subtype.val)))
    (cleaned : Cleaned config world base db) :
    Cleans config world base db (cleanupListed addresses) := by
  unfold cleanupListed
  exact .forM_mem (fun info mem _ cleaned => unwatch_cleans (released info mem) cleaned) cleaned

/-- Listings during the pass are released by what the pass started with. -/
theorem Cleaned.released (cleaned : Cleaned config world base db) (qualifies : Invoice → Prop)
    {invoices : List Invoice} (listed : ∀ invoice ∈ invoices, invoice ∈ db.invoices.rows ∧ qualifies invoice)
    (mem : info ∈ watchesOf invoices db)
    (done : ∀ invoice, qualifies invoice → info.invoiceId = invoice.id → invoice.status = .expired ∨
      invoice.status = .cancelled ∨ invoice.status = .paid ∧ OutOfGrace config world base invoice.id) :
    Released config world base
      (siteAt info.address.val info.chainId (info.tokenAddress.map Subtype.val)) := by
  obtain ⟨invoice, memInvoice, option, memOption, ofInvoice, isInvoice, isSite⟩ :=
    mem_watchesOf cleaned.points mem
  obtain ⟨memDb, qualified⟩ := listed invoice memInvoice
  rw [cleaned.invoices] at memDb
  rw [cleaned.paymentOptions] at memOption
  exact ⟨invoice, memDb, option, memOption, ofInvoice, isSite, done invoice qualified isInvoice⟩

theorem cleanupExpired_cleans : Cleans config world base db (cleanupExpiredAddresses config) := by
  unfold Cleans cleanupExpiredAddresses
  rw [Thread.meets_bind]
  refine .alone_statement ?_ id
  rintro i now addresses _ cleaned - ⟨⟩
  refine ⟨cleaned, cleanupListed_cleans ?_ cleaned⟩
  intro info mem
  refine cleaned.released (fun invoice => invoice.status = .expired) ?_
    (List.mem_of_mem_take mem) fun invoice isExpired _ => .inl isExpired
  intro invoice listed
  rw [List.mem_insertionSort, List.mem_filter] at listed
  exact ⟨listed.1, (of_decide_eq_true listed.2).1⟩

theorem cleanupCancelled_cleans : Cleans config world base db cleanupCancelledAddresses := by
  unfold Cleans cleanupCancelledAddresses
  rw [Thread.meets_bind]
  refine .alone_query (fun cleaned => cleanupListed_cleans ?_ cleaned) id
  intro info mem
  refine cleaned.released (fun invoice => invoice.status = .cancelled) ?_
    (List.mem_of_mem_take mem) fun invoice isCancelled _ => .inr (.inl isCancelled)
  intro invoice listed
  rw [List.mem_filter] at listed
  exact ⟨listed.1, of_decide_eq_true listed.2⟩

theorem cleanupPaid_cleans : Cleans config world base db (cleanupPaidAddresses config) := by
  unfold Cleans cleanupPaidAddresses
  rw [Thread.meets_bind]
  refine .alone_query (fun listing => ?_) id
  refine .forM_mem (fun info mem later _ => ?_) listing
  rw [Thread.meets_bind, Thread.meets_attempt]
  refine .alone_statement ?_ id
  rintro i now result _ cleaned answered ⟨⟩
  refine ⟨cleaned, ?_⟩
  dsimp only
  split
  · exact cleaned
  · exact cleaned
  next outOfGrace =>
    refine unwatch_cleans ?_ cleaned
    refine listing.released (fun invoice => invoice.status = .paid) ?_
      (List.mem_of_mem_take mem) ?_
    · intro invoice listed
      rw [List.mem_filter] at listed
      exact ⟨listed.1, of_decide_eq_true listed.2⟩
    intro invoice isPaid isInvoice
    refine .inr (.inr ⟨isPaid, i, now, answered, ?_⟩)
    have samePayments : getPaymentsForInvoice info.invoiceId later =
        getPaymentsForInvoice info.invoiceId base := by
      rw [getPaymentsForInvoice, cleaned.payments, getPaymentsForInvoice]
    rw [← isInvoice, ← samePayments]
    exact outOfGrace

theorem cleanup_cleaned (config : CleanupConfig) (world : World CleanupError Time)
    (points : PointsAtOptions db) :
    Cleaned config world db ((cleanupAddresses config).toProc world 0 db).state := by
  have start : Cleaned config world db db := ⟨rfl, rfl, rfl, points, fun _ => .inl⟩
  have cleans : Cleans config world db db (cleanupAddresses config) := by
    unfold Cleans cleanupAddresses
    refine cleanupExpired_cleans.bind fun _ db _ => ?_
    exact cleanupPaid_cleans.bind fun _ _ _ => cleanupCancelled_cleans
  exact cleans.keeps_alone start 0

end Cleanup

/-! ## Whole runs -/

/-- The steps of an invoice's life, each run without another in between. -/
inductive LifecycleAction where
  | createInvoice (invoice : InvoiceData) (options : List PaymentOptionData)
  | apply (delivery : Delivery) (event : MonitorEvent) (world : World EventConsumerError Time)
  | checkExpired (world : World StatusCode Time)
  | cancel (invoiceId : Uuid) (world : World StatusCode Time)
  | cleanup (config : CleanupConfig) (world : World CleanupError Time)

namespace LifecycleAction

/-- The database a step leaves, whether it succeeds or is cut short. -/
def perform (divide : Division) (db : Db) : LifecycleAction → Db
  | createInvoice invoice options =>
    -- `create_payment_option` names the invoice it makes an option for
    match createInvoiceWithOptions invoice (options.map fun option => { option with invoiceId := invoice.id }) db with
    | .ok db' => db'
    | .error _ => db
  | apply delivery event world => (handleEvent divide delivery event world 0 db).state
  | checkExpired world => (Api.checkExpired.toProc world 0 db).state
  | cancel invoiceId world => ((cancelAlone invoiceId).toProc world 0 db).state
  | cleanup config world => ((cleanupAddresses config).toProc world 0 db).state

end LifecycleAction

def lifecycle (divide : Division) : System Db LifecycleAction where
  initial db := db = Db.empty
  step db action db' := db' = action.perform divide db

def SwitchedOffPaid (steps : List (Db × LifecycleAction × Db)) (invoiceId : Uuid) (site : Site) : Prop :=
  ∃ taken ∈ steps, ∃ config world, taken.2.1 = .cleanup config world ∧
    Watched taken.1 site ∧ ¬ Watched taken.2.2 site ∧
    ∃ invoice ∈ taken.1.invoices.rows, invoice.id = invoiceId ∧ invoice.status = .paid ∧
      OutOfGrace config world taken.1 invoiceId

structure Kept (steps : List (Db × LifecycleAction × Db)) (db : Db) : Prop where
  points : PointsAtOptions db
  watched : ∀ invoice ∈ db.invoices.rows, isClosed invoice.status = false →
    ∀ option ∈ db.paymentOptions.rows, option.invoiceId = invoice.id → Unshared db option →
      Watched db (optionSite option) ∨ SwitchedOffPaid steps invoice.id (optionSite option)

namespace Kept

variable {steps : List (Db × LifecycleAction × Db)} {db db' : Db}

theorem empty : Kept [] Db.empty := ⟨List.forall_mem_nil _, List.forall_mem_nil _⟩

theorem append (kept : Kept steps db) (taken : Db × LifecycleAction × Db) : Kept (steps ++ [taken]) db := by
  refine ⟨kept.points, ?_⟩
  intro invoice mem isOpen option memOption ofInvoice alone
  refine (kept.watched invoice mem isOpen option memOption ofInvoice alone).imp id ?_
  rintro ⟨earlier, memEarlier, facts⟩
  exact ⟨earlier, List.mem_append_left _ memEarlier, facts⟩

theorem statuses (kept : Kept steps db) (only : StatusesOnly db db') : Kept steps db' := by
  obtain ⟨sameOptions, sameWatches, stillOpen⟩ := only
  refine ⟨?_, ?_⟩
  · rw [PointsAtOptions, sameOptions, sameWatches]
    exact kept.points
  intro invoice mem isOpen option memOption ofInvoice alone
  obtain ⟨old, memOld, sameId, oldOpen⟩ := stillOpen invoice mem isOpen
  rw [Unshared, sameOptions] at alone
  rw [sameOptions] at memOption
  rw [Watched, HasWatch, sameWatches, ← sameId]
  exact kept.watched old memOld oldOpen option memOption (ofInvoice.trans sameId.symm) alone

/-- A new invoice shares no site with an old option unless its options are shared. -/
theorem created (kept : Kept steps db) (fresh : id ∉ db.invoices.keys) (extended : Extended id db db') :
    Kept steps db' := by
  refine ⟨extended.points, ?_⟩
  intro invoice mem isOpen option memOption ofInvoice alone
  rcases extended.options option memOption with old | ⟨ofNew, present⟩
  · have memOld : invoice ∈ db.invoices.rows := by
      refine (extended.invoices invoice mem).resolve_right fun isNew => fresh ?_
      rw [← isNew, ← ofInvoice]
      exact db.optionInvoice option old
    refine (kept.watched invoice memOld isOpen option old ofInvoice fun other memOther =>
      alone other (extended.kept other memOther)).imp_left ?_
    rintro ⟨present, on⟩
    refine ⟨extended.sites _ present, ?_⟩
    intro row memRow isSite
    by_contra off
    rw [Bool.not_eq_true] at off
    have wasOn := on row (extended.off row memRow off) isSite
    rw [off] at wasOn
    cases wasOn
  refine .inl ⟨present, ?_⟩
  intro row memRow isSite
  by_contra off
  rw [Bool.not_eq_true] at off
  -- the row points at an older option of this site
  have memOld := extended.off row memRow off
  obtain ⟨other, memOther, _, sameChain, sameText, sameToken⟩ := kept.points row memOld
  have sameSite : optionSite other = optionSite option := by
    rw [← isSite, optionSite, watchSite, siteAt, siteAt, sameText, sameChain, sameToken]
  have sameInvoice := alone other (extended.kept other memOther) sameSite
  rw [ofNew] at sameInvoice
  exact fresh (sameInvoice ▸ db.optionInvoice other memOther)

theorem cleaned (kept : Kept steps db) {config : CleanupConfig} {world : World CleanupError Time}
    (cleaned : Cleaned config world db db') :
    Kept (steps ++ [(db, .cleanup config world, db')]) db' := by
  refine ⟨cleaned.points, ?_⟩
  intro invoice mem isOpen option memOption ofInvoice alone
  rw [Unshared, cleaned.paymentOptions] at alone
  rw [cleaned.invoices] at mem
  rw [cleaned.paymentOptions] at memOption
  rcases (kept.append _).watched invoice mem isOpen option memOption ofInvoice alone with watched | given
  · by_cases still : Watched db' (optionSite option)
    · exact .inl still
    obtain ⟨owner, memOwner, other, memOther, ofOwner, isSite, isDone⟩ :=
      (cleaned.watches _ watched).resolve_left still
    have sameInvoice : owner = invoice := db.invoices.eq_of_key memOwner mem
      (ofOwner.symm.trans ((alone other memOther isSite).trans ofInvoice))
    subst sameInvoice
    rcases isDone with isExpired | isCancelled | ⟨isPaid, late⟩
    · rw [isExpired] at isOpen
      cases isOpen
    · rw [isCancelled] at isOpen
      cases isOpen
    · exact .inr ⟨_, List.mem_append_right _ (List.mem_singleton_self _), config, world, rfl,
        watched, still, owner, mem, rfl, isPaid, late⟩
  · exact .inr given

theorem step (kept : Kept steps db) (action : LifecycleAction) :
    Kept (steps ++ [(db, action, action.perform divide db)]) (action.perform divide db) := by
  cases action with
  | createInvoice invoice options =>
    refine append ?_ _
    simp only [LifecycleAction.perform]
    split
    next db' done => exact kept.created (fresh_of_ok done) (extended_of_ok done (by simp) kept.points)
    · exact kept
  | apply delivery event world => exact (kept.statuses (handleEvent_only divide delivery event world db)).append _
  | checkExpired world => exact (kept.statuses (checkExpired_only world db)).append _
  | cancel invoiceId world => exact (kept.statuses (cancelAlone_only invoiceId world db)).append _
  | cleanup config world => exact kept.cleaned (cleanup_cleaned config world kept.points)

theorem trace (trace : (lifecycle divide).Trace Db.empty steps db) : Kept steps db := by
  induction trace with
  | nil => exact empty
  | snoc _ last ih =>
    rw [show _ = _ from last]
    exact ih.step _

end Kept

theorem open_of_isPayable (payable : isPayable status = true) : isClosed status = false := by
  cases status with
  | pending | processing | partiallyPaid => rfl
  | _ => cases payable

/--
Every payable invoice is watched: in any state of any run, the watch of each of
its unshared options is on, unless a cleanup pass took it while the invoice was
paid and no payment of it was within its grace period.
-/
theorem payable_invoices_watched {divide : Division} {steps : List (Db × LifecycleAction × Db)} {db : Db}
    (trace : (lifecycle divide).Trace Db.empty steps db) {invoice : Invoice}
    (mem : invoice ∈ db.invoices.rows) (payable : isPayable invoice.status = true)
    {option : PaymentOption} (memOption : option ∈ db.paymentOptions.rows)
    (ofInvoice : option.invoiceId = invoice.id) (alone : Unshared db option) :
    Watched db (optionSite option) ∨ SwitchedOffPaid steps invoice.id (optionSite option) :=
  (Kept.trace trace).watched invoice mem (open_of_isPayable payable) option memOption ofInvoice alone

/-! ## A reorganisation after the watch is gone -/

/-- The database after the actions, one after another. -/
def lifecycleDb (actions : List LifecycleAction) : Db :=
  actions.foldl (LifecycleAction.perform (· / ·)) Db.empty

theorem exists_trace (actions : List LifecycleAction) :
    ∃ steps, (lifecycle (· / ·)).Trace Db.empty steps (lifecycleDb actions) := by
  have reached : (lifecycle (· / ·)).Reachable (lifecycleDb actions) :=
    (System.Reachable.of_initial rfl).foldl fun _ _ _ => rfl
  obtain ⟨_, steps, rfl, trace⟩ := reached.trace
  exact ⟨steps, trace⟩

/-- An invoice over one coin that stays payable until second 1000. -/
def longInvoice : InvoiceData := { sampleInvoice with expiresAt := 1000 }

/-- The invoice is created and paid, and the watches are cleaned up at second 10. -/
def paidRun : List LifecycleAction :=
  [.createInvoice longInvoice [sampleOption],
    .apply (sampleDelivery 1) (.paymentDetected (sampleDetected 7 (10 ^ 18))) fun _ => .ok 0,
    .cleanup ⟨0, 0⟩ fun _ => .ok 10]

theorem payable_invoices_watched_paidRun : ∃ steps,
    (lifecycle (· / ·)).Trace Db.empty steps (lifecycleDb paidRun) ∧
      ∃ invoice ∈ (lifecycleDb paidRun).invoices.rows, isPayable invoice.status = true ∧
        ∃ option ∈ (lifecycleDb paidRun).paymentOptions.rows,
          Watched (lifecycleDb paidRun) (optionSite option) ∨
            SwitchedOffPaid steps invoice.id (optionSite option) := by
  obtain ⟨steps, trace⟩ := exists_trace paidRun
  have facts : ∃ invoice ∈ (lifecycleDb paidRun).invoices.rows, isPayable invoice.status = true ∧
      ∃ option ∈ (lifecycleDb paidRun).paymentOptions.rows, option.invoiceId = invoice.id ∧
        Unshared (lifecycleDb paidRun) option := by decide +kernel
  obtain ⟨invoice, mem, payable, option, memOption, ofInvoice, alone⟩ := facts
  exact ⟨steps, trace, invoice, mem, payable, option, memOption,
    payable_invoices_watched trace mem payable memOption ofInvoice alone⟩

/-- The payment confirms, a pass comes after its grace period, and then its block is dropped. -/
def reopenedRun : List LifecycleAction :=
  paidRun ++ [.apply (sampleDelivery 2) (.paymentConfirmed (sampleConfirmed 7 (10 ^ 18))) fun _ => .ok 20,
    .cleanup ⟨0, 0⟩ fun _ => .ok 400,
    .apply (sampleDelivery 3) (.reorgDetected ⟨1, 9, 8, 9, 3, [1], [], true, 400⟩) fun _ => .ok 400]

/-- A second invoice asks for its payment at the same address, and is cancelled. -/
def sharedRun : List LifecycleAction :=
  [.createInvoice longInvoice [sampleOption],
    .createInvoice { longInvoice with id := 2 } [{ sampleOption with id := 2 }],
    .cancel 2 fun _ => .ok 10, .cleanup ⟨0, 0⟩ fun _ => .ok 400]

/-- An option whose invoice is payable after second 400, and which nothing watches. -/
def Unattended (db : Db) (option : PaymentOption) : Prop :=
  (∃ invoice ∈ db.invoices.rows, option.invoiceId = invoice.id ∧ isPayable invoice.status = true ∧
    400 < invoice.expiresAt) ∧ ¬ Watched db (optionSite option)

theorem reopenedRun_unwatched :
    (∃ steps, (lifecycle (· / ·)).Trace Db.empty steps (lifecycleDb reopenedRun) ∧
      ∃ option ∈ (lifecycleDb reopenedRun).paymentOptions.rows,
        Unshared (lifecycleDb reopenedRun) option ∧ Unattended (lifecycleDb reopenedRun) option) ∧
    ∃ steps, (lifecycle (· / ·)).Trace Db.empty steps (lifecycleDb sharedRun) ∧
      ∃ option ∈ (lifecycleDb sharedRun).paymentOptions.rows, Unattended (lifecycleDb sharedRun) option := by
  obtain ⟨reopening, reopens⟩ := exists_trace reopenedRun
  obtain ⟨sharing, shares⟩ := exists_trace sharedRun
  unfold Unattended
  exact ⟨⟨reopening, reopens, by decide +kernel⟩, sharing, shares, by decide +kernel⟩

end EthPayServer.Watch
