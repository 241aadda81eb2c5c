import EthPayServer.Data.Payment

/-!
# Statements on invoices and what they quote

Invoices with their payment options and watched addresses, the token registry
and the settlement settings, as the event consumer and invoice creation read
and write them.
-/

namespace EthPayServer.Data

open Lib
open Evm (Time Uuid)

/-! ## Reads -/

variable (id : Uuid) (status : InvoiceStatus)

def getInvoice (id : Uuid) (db : Db) : Option Invoice := db.invoices.find? id

/-- `ORDER BY token_id NULLS FIRST`. -/
def Token.before (token other : Token) : Bool :=
  match token.tokenId, other.tokenId with
  | none, _ => true
  | some _, none => false
  | some id, some otherId => decide (id ≤ otherId)

/-- The registered token at an address, in any letter case. -/
def getByAddress (chainId : ChainId) (address : Text) (db : Db) : Option Token :=
  ((db.tokens.filter fun token => token.chainId = chainId ∧ lower token.address.val = lower address)
    |>.insertionSort fun token other => token.before other = true).head?

def getPaymentOptionId (address : Text) (chainId : ChainId) (tokenAddress : Option Text)
    (db : Db) : Option Uuid :=
  (db.watchedAddresses.find? fun watched =>
    lower watched.address.val = lower address ∧ watched.chainId = chainId ∧
      (watched.tokenAddress.map fun token => lower token.val) = tokenAddress.map lower ∧
      watched.isActive).map WatchedAddressRow.paymentOptionId

def getPaymentOption (id : Uuid) (db : Db) : Option PaymentOption := db.paymentOptions.find? id

/-- An invoice's payment options, oldest first. -/
def getForInvoice (invoiceId : Uuid) (db : Db) : List PaymentOption :=
  (db.paymentOptions.rows.filter fun option => option.invoiceId = invoiceId)
    |>.insertionSort fun option other => option.createdAt ≤ other.createdAt

def getSettlementTolerance (storeId : Uuid) (db : Db) : Option (Numeric 78 18) :=
  (db.settlementSettings.find? storeId).map StoreTolerance.tolerancePercent

/-! ## Status and settlement writes -/

def Invoice.withStatus (id : Uuid) (status : InvoiceStatus) (invoice : Invoice) : Invoice :=
  if invoice.id = id then { invoice with status := status } else invoice

@[simp] theorem Invoice.id_withStatus (invoice : Invoice) : (invoice.withStatus id status).id = invoice.id := by
  unfold withStatus
  split <;> rfl

/-- Write a status; no status guards it. -/
def updateStatus (id : Uuid) (status : InvoiceStatus) (db : Db) :
    Except RepositoryError (Unit × Db) :=
  if id ∈ db.invoices.keys then
    .ok ((), db.updateInvoices (Invoice.withStatus id status) (by simp))
  else .error (.notFound s!"Invoice not found: {id}")

def expire (id : Uuid) (db : Db) : Db :=
  db.updateInvoices (fun invoice =>
    if invoice.status = .pending ∨ invoice.status = .processing ∨ invoice.status = .partiallyPaid then
      invoice.withStatus id .expired
    else invoice) fun invoice => by
      split
      · exact invoice.id_withStatus id .expired
      · rfl

variable {db db' : Db}

theorem mem_expire {id : Uuid} {invoice : Invoice} (mem : invoice ∈ (expire id db).invoices.rows) :
    invoice ∈ db.invoices.rows ∨ invoice.status = .expired := by
  obtain ⟨old, memOld, rfl⟩ := List.mem_map.mp mem
  unfold Invoice.withStatus
  split
  · split
    · exact .inr rfl
    · exact .inl memOld
  · exact .inl memOld

/-- Record the shortfall a tolerance accepted, replacing an earlier record. -/
def recordSettlementAllowance (invoiceId : Uuid) (shortfall tolerancePercent : ℚ)
    (source : ToleranceSource) (now : Time) (db : Db) : Except RepositoryError (Unit × Db) := do
  let shortfall ← numeric 78 18 shortfall
  let tolerancePercent ← numeric 78 18 tolerancePercent
  if invoiceId ∈ db.invoices.keys then
    pure ((), { db with
      settlementAllowances := db.settlementAllowances.put
        ⟨invoiceId, shortfall, tolerancePercent, source, now⟩ })
  else .error (refused ("insert or update on table \"invoice_settlement_allowances\" violates " ++
    "foreign key constraint \"invoice_settlement_allowances_invoice_id_fkey\""))

/-! ## Creating an invoice -/

/-- A new invoice; it starts pending with nothing received. -/
structure InvoiceData where
  id : Uuid
  storeId : Uuid
  amount : ℚ
  expiresAt : Time

structure PaymentOptionData where
  id : Uuid
  invoiceId : Uuid
  paymentMethodId : String × ChainId
  chainId : ChainId
  tokenAddress : Option Text
  decimals : Nat
  paymentAddress : Text
  rate : Option ℚ
  createdAt : Time

def Db.appendInvoice (db : Db) (invoice : Invoice) (fresh : invoice.id ∉ db.invoices.keys) : Db :=
  { db with
    invoices := db.invoices.insert invoice fresh
    paymentInvoice := by
      intro payment mem
      rw [Table.keys_insert]
      exact List.mem_append_left _ (db.paymentInvoice payment mem)
    optionInvoice := by
      intro option mem
      rw [Table.keys_insert]
      exact List.mem_append_left _ (db.optionInvoice option mem) }

def Db.appendOption (db : Db) (option : PaymentOption) (fresh : option.id ∉ db.paymentOptions.keys)
    (hasInvoice : option.invoiceId ∈ db.invoices.keys) : Db :=
  { db with
    paymentOptions := db.paymentOptions.insert option fresh
    paymentOption := by
      intro payment mem id named
      rw [Table.keys_insert]
      exact List.mem_append_left _ (db.paymentOption payment mem id named)
    optionInvoice := by
      intro other mem
      rcases List.mem_append.mp mem with old | new
      · exact db.optionInvoice other old
      · rw [List.mem_singleton.mp new]
        exact hasInvoice
    watchedOption := by
      intro watched mem
      rw [Table.keys_insert]
      exact List.mem_append_left _ (db.watchedOption watched mem) }

def insertInvoice (invoice : InvoiceData) (db : Db) : Except RepositoryError Db := do
  let amount ← numeric 78 18 invoice.amount
  let row : Invoice := ⟨invoice.id, invoice.storeId, amount, 0, .pending, invoice.expiresAt⟩
  if fresh : row.id ∉ db.invoices.keys then pure (db.appendInvoice row fresh)
  else .error (refused "duplicate key value violates unique constraint \"invoices_pkey\"")

def insertPaymentOption (option : PaymentOptionData) (db : Db) : Except RepositoryError Db := do
  let tokenAddress ← nullable (varChar 42) option.tokenAddress
  let paymentAddress ← varChar 42 option.paymentAddress
  let rate ← nullable (numeric 38 18) option.rate
  let row : PaymentOption := ⟨option.id, option.invoiceId, option.paymentMethodId, option.chainId,
    tokenAddress, option.decimals, paymentAddress, rate, option.createdAt⟩
  if fresh : row.id ∉ db.paymentOptions.keys then
    if db.paymentOptions.rows.any fun other =>
        other.invoiceId = row.invoiceId ∧ other.paymentMethodId = row.paymentMethodId then
      .error (refused "duplicate key value violates unique constraint \"unique_payment_option\"")
    else if hasInvoice : row.invoiceId ∈ db.invoices.keys then
      pure (db.appendOption row fresh hasInvoice)
    else .error (refused ("insert or update on table \"payment_options\" violates foreign key " ++
      "constraint \"payment_options_invoice_id_fkey\""))
  else .error (refused "duplicate key value violates unique constraint \"payment_options_pkey\"")

variable {row other : WatchedAddressRow}

namespace WatchedAddressRow

/--
Whether an upsert of a row meets another one: a token watch by its exact
texts, a native watch by the address in any letter case.
-/
def meets (row other : WatchedAddressRow) : Bool :=
  match row.tokenAddress with
  | some token => decide (other.address = row.address ∧ other.chainId = row.chainId ∧
      other.tokenAddress = some token)
  | none => decide (lower other.address.val = lower row.address.val ∧
      other.chainId = row.chainId ∧ other.tokenAddress = none)

/-- Point an existing watch at a row's option; it keeps the invoice it was inserted for. -/
def repoint (row other : WatchedAddressRow) : WatchedAddressRow :=
  { other with
    paymentOptionId := row.paymentOptionId
    isActive := true
    expiresAt := row.expiresAt
    monitorNotified := false }

theorem same_of_meets (met : row.meets other = true) :
    lower other.address.val = lower row.address.val ∧ other.chainId = row.chainId ∧
      other.tokenAddress = row.tokenAddress := by
  unfold meets at met
  cases token : row.tokenAddress with
  | none =>
    simp only [token, decide_eq_true_eq] at met
    exact met
  | some text =>
    simp only [token, decide_eq_true_eq] at met
    obtain ⟨sameAddress, sameChain, sameToken⟩ := met
    exact ⟨by rw [sameAddress], sameChain, sameToken⟩

end WatchedAddressRow

/-- The rows an upsert of a watched address leaves. -/
def watchedRows (row : WatchedAddressRow) (rows : List WatchedAddressRow) :
    List WatchedAddressRow :=
  if rows.any row.meets then
    rows.map fun other => if row.meets other then row.repoint other else other
  else rows ++ [row]

theorem mem_watchedRows {rows : List WatchedAddressRow} (mem : other ∈ watchedRows row rows) :
    other = row ∨ other ∈ rows ∨ ∃ old ∈ rows, row.meets old = true ∧ other = row.repoint old := by
  unfold watchedRows at mem
  split at mem
  · obtain ⟨old, memOld, rfl⟩ := List.mem_map.mp mem
    split
    next met => exact .inr (.inr ⟨old, memOld, met, rfl⟩)
    · exact .inr (.inl memOld)
  · rcases List.mem_append.mp mem with old | new
    · exact .inr (.inl old)
    · exact .inl (List.mem_singleton.mp new)

def upsertWatchedAddress (invoice : InvoiceData) (option : PaymentOptionData) (db : Db) :
    Except RepositoryError Db := do
  let address ← varChar 42 option.paymentAddress
  let tokenAddress ← nullable (varChar 42) option.tokenAddress
  let row : WatchedAddressRow :=
    ⟨invoice.id, option.id, option.chainId, address, tokenAddress, true, invoice.expiresAt, false⟩
  if hasOption : row.paymentOptionId ∈ db.paymentOptions.keys then
    pure { db with
      watchedAddresses := watchedRows row db.watchedAddresses
      watchedOption := by
        intro watched mem
        rcases mem_watchedRows mem with rfl | old | ⟨old, _, _, rfl⟩
        · exact hasOption
        · exact db.watchedOption watched old
        · exact hasOption }
  else .error (refused ("insert or update on table \"watched_addresses\" violates foreign key " ++
    "constraint \"watched_addresses_payment_option_id_fkey\""))

def createInvoiceWithOptions (invoice : InvoiceData) (options : List PaymentOptionData) (db : Db) :
    Except RepositoryError Db := do
  let created ← insertInvoice invoice db
  options.foldlM (fun db option => do
    let quoted ← insertPaymentOption option db
    upsertWatchedAddress invoice option quoted) created

/-! ## What creating an invoice does -/

structure InvoiceAdded (db db' : Db) : Prop where
  invoices : ∃ row : Invoice, row.amountReceived = 0 ∧ row.status = .pending ∧
    db'.invoices.rows = db.invoices.rows ++ [row]
  payments : db'.payments = db.payments
  paymentOptions : db'.paymentOptions = db.paymentOptions
  watchedAddresses : db'.watchedAddresses = db.watchedAddresses

variable {invoice : InvoiceData}

theorem insertInvoice_ok (done : insertInvoice invoice db = .ok db') : InvoiceAdded db db' := by
  obtain ⟨amount, _, inserted⟩ := bind_eq_ok.mp done
  dsimp only at inserted
  split at inserted
  · cases inserted
    exact ⟨⟨_, rfl, rfl, rfl⟩, rfl, rfl, rfl⟩
  · cases inserted

structure PaymentOptionData.Stores (option : PaymentOptionData) (row : PaymentOption) : Prop where
  id : row.id = option.id
  invoiceId : row.invoiceId = option.invoiceId
  chainId : row.chainId = option.chainId
  tokenAddress : row.tokenAddress.map Subtype.val = option.tokenAddress
  paymentAddress : row.paymentAddress.val = option.paymentAddress
  rate : row.rate = option.rate.bind Numeric.ofRat?

structure OptionAdded (option : PaymentOptionData) (db db' : Db) : Prop where
  paymentOptions : ∃ row, option.Stores row ∧
    db'.paymentOptions.rows = db.paymentOptions.rows ++ [row]
  watchedAddresses : ∃ row : WatchedAddressRow, row.paymentOptionId = option.id ∧
    row.chainId = option.chainId ∧ row.address.val = option.paymentAddress ∧
    row.tokenAddress.map Subtype.val = option.tokenAddress ∧
    db'.watchedAddresses = watchedRows row db.watchedAddresses
  payments : db'.payments = db.payments
  invoices : db'.invoices = db.invoices

theorem map_val_of_nullable {bound : Nat} {text : Option Text} {stored : Option (VarChar bound)}
    (done : nullable (varChar bound) text = .ok stored) : stored.map Subtype.val = text := by
  rcases nullable_ok.mp done with ⟨isNone, rfl⟩ | ⟨value, kept, isSome, same, rfl⟩
  · rw [isNone]
    rfl
  · rw [isSome, ← varChar_ok.mp same]
    rfl

theorem bind_of_nullable {precision scale : Nat} {value : Option ℚ}
    {stored : Option (Numeric precision scale)}
    (done : nullable (numeric precision scale) value = .ok stored) :
    stored = value.bind Numeric.ofRat? := by
  rcases nullable_ok.mp done with ⟨isNone, rfl⟩ | ⟨number, kept, isSome, same, rfl⟩
  · rw [isNone]
    rfl
  · rw [isSome]
    exact (numeric_ok.mp same).symm

variable {option : PaymentOptionData}

theorem insertPaymentOption_ok (done : insertPaymentOption option db = .ok db') :
    ∃ row, option.Stores row ∧ db'.paymentOptions.rows = db.paymentOptions.rows ++ [row] ∧ db'.payments = db.payments ∧
      db'.invoices = db.invoices ∧ db'.watchedAddresses = db.watchedAddresses := by
  obtain ⟨token, isToken, rest⟩ := bind_eq_ok.mp done
  obtain ⟨address, isAddress, rest⟩ := bind_eq_ok.mp rest
  obtain ⟨rate, isRate, inserted⟩ := bind_eq_ok.mp rest
  dsimp only at inserted
  split at inserted
  · split at inserted
    · cases inserted
    split at inserted
    · cases inserted
      exact ⟨_, ⟨rfl, rfl, rfl, map_val_of_nullable isToken, varChar_ok.mp isAddress,
        bind_of_nullable isRate⟩, rfl, rfl, rfl, rfl⟩
    · cases inserted
  · cases inserted

theorem upsertWatchedAddress_ok (done : upsertWatchedAddress invoice option db = .ok db') :
    ∃ row : WatchedAddressRow, row.paymentOptionId = option.id ∧ row.chainId = option.chainId ∧
      row.address.val = option.paymentAddress ∧
      row.tokenAddress.map Subtype.val = option.tokenAddress ∧
      (row.isActive = true ∧ row.monitorNotified = false ∧ row.invoiceId = invoice.id) ∧
      db'.watchedAddresses = watchedRows row db.watchedAddresses ∧ db'.payments = db.payments ∧
      db'.invoices = db.invoices ∧ db'.paymentOptions = db.paymentOptions := by
  obtain ⟨address, isAddress, rest⟩ := bind_eq_ok.mp done
  obtain ⟨token, isToken, written⟩ := bind_eq_ok.mp rest
  dsimp only at written
  split at written
  · cases written
    exact ⟨⟨invoice.id, option.id, option.chainId, address, token, true, invoice.expiresAt, false⟩,
      rfl, rfl, varChar_ok.mp isAddress, map_val_of_nullable isToken, ⟨rfl, rfl, rfl⟩, rfl, rfl, rfl, rfl⟩
  · cases written

theorem optionAdded_of_ok {quoted : Db} (stored : insertPaymentOption option db = .ok quoted)
    (pointed : upsertWatchedAddress invoice option quoted = .ok db') : OptionAdded option db db' := by
  obtain ⟨row, stores, isOptions, samePayments, sameInvoices, sameWatches⟩ := insertPaymentOption_ok stored
  obtain ⟨watch, isOption, isChain, isAddress, isToken, _, isWatches, samePayments', sameInvoices',
    sameOptions⟩ := upsertWatchedAddress_ok pointed
  exact ⟨⟨row, stores, by rw [sameOptions, isOptions]⟩,
    ⟨watch, isOption, isChain, isAddress, isToken, by rw [isWatches, sameWatches]⟩,
    samePayments'.trans samePayments, sameInvoices'.trans sameInvoices⟩

variable {I : Db → Prop} {options : List PaymentOptionData}

theorem foldlM_options_preserves {created : Db}
    (done : options.foldlM (fun db option => do
      let quoted ← insertPaymentOption option db
      upsertWatchedAddress invoice option quoted) created = .ok db') (start : I created)
    (onOption : ∀ option ∈ options, ∀ {db quoted db'}, insertPaymentOption option db = .ok quoted →
      upsertWatchedAddress invoice option quoted = .ok db' → I db → I db') : I db' := by
  induction options generalizing created with
  | nil =>
    cases done
    exact start
  | cons option options ih =>
    rw [List.foldlM_cons] at done
    obtain ⟨watched, both, later⟩ := bind_eq_ok.mp done
    obtain ⟨quoted, stored, pointed⟩ := bind_eq_ok.mp both
    exact ih later (onOption option List.mem_cons_self stored pointed start)
      fun other mem => onOption other (List.mem_cons_of_mem option mem)

variable (done : createInvoiceWithOptions invoice options db = .ok db')
include done

theorem createInvoiceWithOptions_statements (start : I db)
    (onInvoice : ∀ {db db'}, insertInvoice invoice db = .ok db' → I db → I db')
    (onOption : ∀ option ∈ options, ∀ {db quoted db'}, insertPaymentOption option db = .ok quoted →
      upsertWatchedAddress invoice option quoted = .ok db' → I db → I db') : I db' := by
  obtain ⟨created, inserted, rest⟩ := bind_eq_ok.mp done
  exact foldlM_options_preserves rest (onInvoice inserted start) onOption

theorem createInvoiceWithOptions_ok :
    ∃ created, insertInvoice invoice db = .ok created ∧ db'.invoices = created.invoices ∧
      db'.payments = created.payments := by
  obtain ⟨created, inserted, rest⟩ := bind_eq_ok.mp done
  refine ⟨created, inserted, foldlM_options_preserves
    (I := fun quoted => quoted.invoices = created.invoices ∧ quoted.payments = created.payments) rest
    ⟨rfl, rfl⟩ ?_⟩
  rintro option - before quoted after stored pointed ⟨sameInvoices, samePayments⟩
  have added := optionAdded_of_ok stored pointed
  exact ⟨added.invoices.trans sameInvoices, added.payments.trans samePayments⟩

theorem createInvoiceWithOptions_preserves (start : I db)
    (onInvoice : ∀ {db db'}, InvoiceAdded db db' → I db → I db')
    (onOption : ∀ option ∈ options, ∀ {db db'}, OptionAdded option db db' → I db → I db') : I db' :=
  createInvoiceWithOptions_statements done start (fun inserted => onInvoice (insertInvoice_ok inserted))
    fun option mem _ _ _ stored pointed => onOption option mem (optionAdded_of_ok stored pointed)

end EthPayServer.Data
