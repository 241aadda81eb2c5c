import EthPayServer.Consumer.Writes
import EthPayServer.Lib.Transition

/-!
# The server and its database

Everything that writes the payment tables: the event consumer, the creation of
invoices, their expiry and cancellation, and the settings of stores and tokens.
Only the event consumer writes payments.
-/

namespace EthPayServer.Pipeline

open Lib Data Consumer
open Evm (Time Uuid Address MonitorEvent)

/-- What the server does beside applying events. -/
inductive AdminAction where
  | createInvoice (invoice : InvoiceData) (options : List PaymentOptionData)
  | updateStatus (id : Uuid) (status : InvoiceStatus)
  | expire (id : Uuid)
  | setTolerance (setting : StoreTolerance)
  | clearTolerance (storeId : Uuid)
  | setTokens (tokens : List Token)
  | deactivate (address : Text) (chainId : ChainId) (tokenAddress : Option Text)

/-- What invoice creation checks about an option before it stores it. -/
structure Quoted (option : PaymentOptionData) : Prop where
  rate : ∀ rate ∈ option.rate, 0 < rate
  /-- a derived address in any spelling of its digits -/
  address : ∀ number, option.chainId = .evm number → ∃ address : Address,
    IsHexText 40 address.toNat option.paymentAddress

def AdminAction.Valid : AdminAction → Prop
  | createInvoice _ options => ∀ option ∈ options, Quoted option
  | _ => True

/-- Whether a row is the active watch `WatchedAddressWriter::deactivate` names. -/
def isDeactivated (address : Text) (chainId : ChainId) (tokenAddress : Option Text)
    (row : WatchedAddressRow) : Bool :=
  decide (lower row.address.val = lower address ∧ row.chainId = chainId ∧
    (row.tokenAddress.map fun token => lower token.val) = tokenAddress.map lower ∧ row.isActive = true)

/-- Carry out an action; a transaction that fails changes nothing. -/
def AdminAction.perform (action : AdminAction) (db : Db) : Db :=
  match action with
  | createInvoice invoice options =>
    match createInvoiceWithOptions invoice options db with
    | .ok created => created
    | .error _ => db
  | updateStatus id status =>
    match Data.updateStatus id status db with
    | .ok (_, written) => written
    | .error _ => db
  | expire id => Data.expire id db
  | setTolerance setting => { db with settlementSettings := db.settlementSettings.put setting }
  | clearTolerance storeId => { db with
      settlementSettings := db.settlementSettings.filter fun setting => setting.storeId ≠ storeId }
  | setTokens tokens => { db with tokens := tokens }
  | deactivate address chainId tokenAddress => { db with
      watchedAddresses := db.watchedAddresses.map fun row =>
        if isDeactivated address chainId tokenAddress row then { row with isActive := false } else row
      watchedOption := by
        intro row mem
        obtain ⟨old, memOld, rfl⟩ := List.mem_map.mp mem
        have known := db.watchedOption old memOld
        split <;> exact known }

/-- A step of the server: one application of an event, however it ends, or one other action. -/
inductive ServerAction where
  | apply (delivery : Delivery) (event : MonitorEvent) (world : World EventConsumerError Time)
  | admin (action : AdminAction)

def ServerAction.perform (divide : Division) (action : ServerAction) (db : Db) : Db :=
  match action with
  | apply delivery event world => (handleEvent divide delivery event world 0 db).state
  | admin action => action.perform db

/-- The server over its database, from the empty tables on. -/
def server (divide : Division) : System Db ServerAction where
  initial db := db = Db.empty
  step db action db' := (∀ admin, action = .admin admin → admin.Valid) ∧ db' = action.perform divide db

/-! ## What the other actions write -/

structure StatusesChanged (db db' : Db) : Prop where
  invoices : ∃ change : Invoice → Invoice,
    (∀ invoice, (change invoice).id = invoice.id ∧ (change invoice).amount = invoice.amount ∧
      (change invoice).amountReceived = invoice.amountReceived) ∧
    db'.invoices.rows = db.invoices.rows.map change
  payments : db'.payments = db.payments
  paymentOptions : db'.paymentOptions = db.paymentOptions
  watchedAddresses : db'.watchedAddresses = db.watchedAddresses

structure SettingsChanged (db db' : Db) : Prop where
  payments : db'.payments = db.payments
  invoices : db'.invoices = db.invoices
  paymentOptions : db'.paymentOptions = db.paymentOptions
  watchedAddresses : ∀ row ∈ db'.watchedAddresses, ∃ old ∈ db.watchedAddresses,
    row.paymentOptionId = old.paymentOptionId ∧ row.chainId = old.chainId ∧
      row.address = old.address ∧ row.tokenAddress = old.tokenAddress

inductive AdminWrite (db db' : Db) : Prop
  | invoice (added : InvoiceAdded db db')
  | option (data : PaymentOptionData) (quoted : Quoted data) (added : OptionAdded data db db')
  | statuses (changed : StatusesChanged db db')
  | settings (changed : SettingsChanged db db')

theorem AdminWrite.samePayments {db db' : Db} (write : AdminWrite db db') :
    db'.payments = db.payments := by
  cases write with
  | invoice added => exact added.payments
  | option data quoted added => exact added.payments
  | statuses changed => exact changed.payments
  | settings changed => exact changed.payments

theorem AdminAction.perform_preserves {I : Db → Prop} {action : AdminAction} (valid : action.Valid)
    (keeps : ∀ {db db'}, AdminWrite db db' → I db → I db') {db : Db} (start : I db) :
    I (action.perform db) := by
  have setting : ∀ db' : Db, db'.payments = db.payments → db'.invoices = db.invoices →
      db'.paymentOptions = db.paymentOptions → db'.watchedAddresses = db.watchedAddresses → I db' := by
    intro db' samePayments sameInvoices sameOptions sameWatches
    refine keeps (.settings ⟨samePayments, sameInvoices, sameOptions, ?_⟩) start
    intro row mem
    rw [sameWatches] at mem
    exact ⟨row, mem, rfl, rfl, rfl, rfl⟩
  cases action with
  | createInvoice invoice options =>
    simp only [perform]
    cases done : createInvoiceWithOptions invoice options db with
    | error e => exact start
    | ok created =>
      refine createInvoiceWithOptions_preserves done start (fun added => keeps (.invoice added)) ?_
      intro option mem db db' added
      exact keeps (.option option (valid option mem) added)
  | updateStatus id status =>
    simp only [perform]
    cases done : Data.updateStatus id status db with
    | error e => exact start
    | ok result =>
      have written := updateStatus_ok (show Data.updateStatus id status db = .ok ((), result.2) from done)
      refine keeps (.statuses ⟨⟨Invoice.withStatus id status, ?_, written.invoices⟩, written.payments,
        written.catalog.paymentOptions, written.catalog.watchedAddresses⟩) start
      intro invoice
      unfold Invoice.withStatus
      split <;> exact ⟨rfl, rfl, rfl⟩
  | expire id =>
    refine keeps (.statuses ⟨⟨_, ?_, rfl⟩, rfl, rfl, rfl⟩) start
    intro invoice
    unfold Invoice.withStatus
    split
    · split <;> exact ⟨rfl, rfl, rfl⟩
    · exact ⟨rfl, rfl, rfl⟩
  | setTolerance _ => exact setting _ rfl rfl rfl rfl
  | clearTolerance _ => exact setting _ rfl rfl rfl rfl
  | setTokens _ => exact setting _ rfl rfl rfl rfl
  | deactivate address chainId tokenAddress =>
    have changed : SettingsChanged db ((deactivate address chainId tokenAddress).perform db) := by
      refine ⟨rfl, rfl, rfl, ?_⟩
      intro row mem
      obtain ⟨old, memOld, rfl⟩ := List.mem_map.mp mem
      refine ⟨old, memOld, ?_⟩
      split <;> exact ⟨rfl, rfl, rfl, rfl⟩
    exact keeps (.settings changed) start

theorem server_step_preserves {divide : Division} {I : Db → Prop}
    (onEvent : ∀ {event db db'}, Write divide event db db' → I db → I db')
    (onAdmin : ∀ {db db'}, AdminWrite db db' → I db → I db') {db db' : Db} {action : ServerAction}
    (step : (server divide).step db action db') (start : I db) : I db' := by
  obtain ⟨valid, rfl⟩ := step
  cases action with
  | apply delivery event world => exact (handleEvent_writes delivery event).preserves onEvent world 0 start
  | admin action => exact action.perform_preserves (valid action rfl) onAdmin start

end EthPayServer.Pipeline
