import EthPayServer.Api.Extractors

/-!
# Which stores a listing reads

`GET /invoices` and `GET /payments`, as lists and as CSV exports.  The caller's
memberships give the stores a query may read, the scope of an API key narrows
them, and every filter of the request is a further condition beside the stores.
-/

namespace EthPayServer.Api

open Lib Data
open Evm (Time Uuid)

/-- `ethpay.store.canviewinvoices`. -/
def viewInvoices : Text := "ethpay.store.canviewinvoices".toList

/-! ## The stores of a query -/

/-- Which stores a listing query may read. -/
inductive StoreScope where
  | one (id : Uuid)
  | membership (ids : List Uuid)
  | all
deriving DecidableEq

/-- The store is among those the scope names. -/
def StoreScope.Covers : StoreScope → Uuid → Prop
  | .one id, storeId => storeId = id
  | .membership ids, storeId => storeId ∈ ids
  | .all, _ => True

def narrowScopeByKey (scope : StoreScope) (keyScope : Option (List Text)) (policy : Text) :
    Except Rejection StoreScope :=
  match scope with
  | .one id =>
    if keyGrantsStorePermission keyScope policy id then .ok (.one id) else .error ⟨.forbidden, ""⟩
  | .membership ids =>
    .ok (.membership (ids.filter fun id => keyGrantsStorePermission keyScope policy id))
  | .all => .ok .all

/-- Without a store, everything the caller can see: all stores for an administrator. -/
def verifyStoreAccessForQuery (user : AccountInfo) (storeId : Option Uuid) : AuthT StoreScope :=
  match storeId with
  | some id => do
    let (found, _) ← lookUp (Registry.getUserStore user.id id) ""
    if !found.isSome && user.role ≠ .serverAdmin then Thread.fail ⟨.forbidden, ""⟩
    else pure (.one id)
  | none =>
    if user.role = .serverAdmin then pure .all
    else do
      let (memberships, _) ← lookUp (Registry.getUserStores user.id) ""
      pure (.membership (memberships.map UserStore.storeId))

/-- How the four listings begin. -/
def listedStores (app : AppState) (authorization : Option Text) (storeId : Option Uuid) :
    AuthT StoreScope := do
  let (user, keyScope) ← storeScopedUser app authorization
  let scope ← verifyStoreAccessForQuery user storeId
  match narrowScopeByKey scope keyScope viewInvoices with
  | .error rejection => Thread.fail rejection
  | .ok narrowed => pure narrowed

/-! ## Conditions -/

/-- What the text of a filter says: a status, or a pattern on text columns. -/
structure Queries where
  parseInvoiceStatus : Text → Option InvoiceStatus
  invoiceSearch : Text → Invoice → InvoiceColumns → Bool
  paymentSearch : Text → Payment → Bool

/-- The page size of new query params. -/
def defaultLimit : Int := 50

structure InvoiceQueryParams where
  storeId : Option Uuid
  storeIds : Option (List Uuid)
  status : Option InvoiceStatus
  currency : Option Text
  search : Option Text
  createdAfter : Option Time
  createdBefore : Option Time
  limit : Int
  offset : Int

structure PaymentQueryParams where
  storeId : Option Uuid
  storeIds : Option (List Uuid)
  invoiceId : Option Uuid
  search : Option Text
  confirmed : Option Bool
  limit : Int
  offset : Int

variable (queries : Queries)

/-- The `WHERE` clause: the conditions that are set, joined by `AND`. -/
def InvoiceQueryParams.admits (params : InvoiceQueryParams) (invoice : Invoice) (columns : InvoiceColumns) :
    Bool :=
  params.storeId.all (invoice.storeId = ·) && params.storeIds.all (invoice.storeId ∈ ·) &&
    params.status.all (invoice.status = ·) && params.currency.all (columns.currency = ·) &&
    params.search.all (queries.invoiceSearch · invoice columns) &&
    params.createdAfter.all (· ≤ columns.createdAt) && params.createdBefore.all (columns.createdAt ≤ ·)

/-- Newest first. -/
def InvoiceQueryParams.matching (params : InvoiceQueryParams) (registry : Registry) : List Invoice :=
  (registry.ledger.db.invoices.rows.filter fun invoice =>
      params.admits queries invoice (registry.invoiceColumns invoice.id))
    |>.insertionSort fun invoice other =>
      (registry.invoiceColumns other.id).createdAt ≤ (registry.invoiceColumns invoice.id).createdAt

def storeOf (registry : Registry) (payment : Payment) : Option Uuid :=
  (registry.ledger.db.invoices.find? payment.invoiceId).map Invoice.storeId

def PaymentQueryParams.admits (params : PaymentQueryParams) (payment : Payment) (storeId : Option Uuid) :
    Bool :=
  params.storeId.all (storeId = some ·) && params.storeIds.all (fun ids => storeId.any (· ∈ ids)) &&
    params.invoiceId.all (payment.invoiceId = ·) && params.search.all (queries.paymentSearch · payment) &&
    params.confirmed.all (payment.confirmedAt.isSome = ·)

def PaymentQueryParams.matching (params : PaymentQueryParams) (registry : Registry) : List Payment :=
  (registry.ledger.db.payments.rows.filter fun payment =>
      params.admits queries payment (storeOf registry payment))
    |>.insertionSort fun payment other => other.detectedAt ≤ payment.detectedAt

/-- `apply_invoice` on new params. -/
def StoreScope.applyInvoice (scope : StoreScope) : InvoiceQueryParams where
  storeId := match scope with | .one id => some id | _ => none
  storeIds := match scope with | .membership ids => some ids | _ => none
  status := none
  currency := none
  search := none
  createdAfter := none
  createdBefore := none
  limit := defaultLimit
  offset := 0

/-- `apply_payment` on new params. -/
def StoreScope.applyPayment (scope : StoreScope) : PaymentQueryParams where
  storeId := match scope with | .one id => some id | _ => none
  storeIds := match scope with | .membership ids => some ids | _ => none
  invoiceId := none
  search := none
  confirmed := none
  limit := defaultLimit
  offset := 0

def invalidStatusFilter : Rejection := ⟨.badRequest, "invalid status filter"⟩

def buildInvoiceFilterParams (scope : StoreScope) (status currency search : Option Text) :
    Except Rejection InvoiceQueryParams :=
  let params := { scope.applyInvoice with currency := currency, search := search }
  match status with
  | none => .ok params
  | some text =>
    match queries.parseInvoiceStatus text with
    | none => .error invalidStatusFilter
    | some parsed => .ok { params with status := some parsed }

def buildPaymentFilterParams (scope : StoreScope) (status search : Option Text) :
    Except Rejection PaymentQueryParams :=
  let params := { scope.applyPayment with search := search }
  match status with
  | none => .ok params
  | some text =>
    if text = "confirmed".toList then .ok { params with confirmed := some true }
    else if text = "pending".toList then .ok { params with confirmed := some false }
    else .error invalidStatusFilter

/-! ## Pages -/

/-- `LIMIT` and `OFFSET`; Postgres refuses a negative one. -/
def page {ρ : Type} (limit offset : Int) (rows : List ρ) : Option (List ρ) :=
  if limit < 0 ∨ offset < 0 then none else some ((rows.drop offset.toNat).take limit.toNat)

/-- The two statements of `query`: the count, then the rows. -/
def selectPage {ρ : Type} (matching : Registry → List ρ) (limit offset : Int) : AuthT (Nat × List ρ) := do
  let (total, _) ← lookUp (fun registry => (matching registry).length) ""
  match ← lookUp (fun registry => page limit offset (matching registry)) "" with
  | (none, _) => Thread.fail ⟨.internalServerError, ""⟩
  | (some rows, _) => pure (total, rows)

def maxExportRows : Nat := 50000

def exportPageSize : Int := 1000

/-- The rows of an export, as far as the client reads the stream; an error ends it. -/
def exportPages {ρ : Type} (matching : Registry → List ρ) : Nat → Int → AuthT (List ρ)
  | 0, _ => pure []
  | pages + 1, offset => do
    match ← (selectPage matching exportPageSize offset).attempt with
    | .error _ => pure []
    | .ok (_, []) => pure []
    | .ok (_, rows) => do
      let rest ← exportPages matching pages (offset + rows.length)
      pure (rows ++ rest)

/-- An export, refused when too many rows match. -/
def exportRows {ρ : Type} (matching : Registry → List ρ) (pages : Nat) : AuthT (List ρ) := do
  let (total, _) ← selectPage matching 1 0
  if maxExportRows < total then Thread.fail ⟨.payloadTooLarge, "export_too_large"⟩
  else exportPages matching pages 0

/-! ## The listings -/

structure ListInvoicesQuery where
  storeId : Option Uuid
  status : Option Text
  currency : Option Text
  search : Option Text
  limit : Option Int
  offset : Option Int

structure ListPaymentsQuery where
  storeId : Option Uuid
  status : Option Text
  search : Option Text
  limit : Option Int
  offset : Option Int

variable (app : AppState)

def listInvoices (authorization : Option Text) (query : ListInvoicesQuery) : AuthT (Nat × List Invoice) := do
  let scope ← listedStores app authorization query.storeId
  match buildInvoiceFilterParams queries scope query.status query.currency query.search with
  | .error rejection => Thread.fail rejection
  | .ok params =>
    selectPage (params.matching queries) (query.limit.getD params.limit) (query.offset.getD params.offset)

def exportInvoicesCsv (authorization : Option Text) (query : ListInvoicesQuery) (pages : Nat) :
    AuthT (List Invoice) := do
  let scope ← listedStores app authorization query.storeId
  match buildInvoiceFilterParams queries scope query.status query.currency query.search with
  | .error rejection => Thread.fail rejection
  | .ok params => exportRows (params.matching queries) pages

def listPayments (authorization : Option Text) (query : ListPaymentsQuery) : AuthT (Nat × List Payment) := do
  let scope ← listedStores app authorization query.storeId
  match buildPaymentFilterParams scope query.status query.search with
  | .error rejection => Thread.fail rejection
  | .ok params =>
    selectPage (params.matching queries) (query.limit.getD params.limit) (query.offset.getD params.offset)

def exportPaymentsCsv (authorization : Option Text) (query : ListPaymentsQuery) (pages : Nat) :
    AuthT (List Payment) := do
  let scope ← listedStores app authorization query.storeId
  match buildPaymentFilterParams scope query.status query.search with
  | .error rejection => Thread.fail rejection
  | .ok params => exportRows (params.matching queries) pages

/-! ## What a listing shows -/

variable {scope narrowed : StoreScope} {keyScope : Option (List Text)}
   {authorization status currency search : Option Text} {params : InvoiceQueryParams}

section Shown

variable {queries app} {registry registry' : Registry}

/-- Narrowing by a key keeps a store only if the scope named it; only all stores pass unnarrowed. -/
theorem covers_of_narrow {policy : Text} (done : narrowScopeByKey scope keyScope policy = .ok narrowed)
    (bounded : scope ≠ .all) {storeId : Uuid} (covered : narrowed.Covers storeId) :
    scope.Covers storeId ∧ keyGrantsStorePermission keyScope policy storeId = true := by
  cases scope with
  | all => exact absurd rfl bounded
  | one id =>
    simp only [narrowScopeByKey] at done
    split at done
    next granted =>
      cases done
      rw [show storeId = id from covered]
      exact ⟨rfl, granted⟩
    · cases done
  | membership ids =>
    cases done
    exact List.mem_filter.mp covered

theorem narrowScopeByKey_bounded {policy : Text} (done : narrowScopeByKey scope keyScope policy = .ok narrowed)
    (bounded : scope ≠ .all) : narrowed ≠ .all := by
  cases scope with
  | all => exact absurd rfl bounded
  | one id =>
    simp only [narrowScopeByKey] at done
    split at done <;> cases done
    exact bounded
  | membership ids =>
    cases done
    exact fun same => nomatch same

/-- Who is not an administrator gets the stores they belong to, one or all of them. -/
theorem verifyStoreAccessForQuery_yields {user : AccountInfo} {storeId : Option Uuid}
    (plain : user.role = .user)
    (ends : (verifyStoreAccessForQuery user storeId).Yields registry scope registry') :
    registry' = registry ∧ scope ≠ .all ∧
      ∀ store, scope.Covers store → registry.IsMember user.id store := by
  cases storeId with
  | some id =>
    obtain ⟨⟨found, now⟩, between, looked, rest⟩ := ends.of_bind
    obtain ⟨isFound, rfl⟩ := lookUp_yields looked
    dsimp only at isFound rest
    split at rest
    · exact rest.of_fail.elim
    next allowed =>
      obtain ⟨rfl, rfl⟩ := rest.of_pure
      refine ⟨rfl, by simp, ?_⟩
      rintro store rfl
      refine Registry.isMember_of_getUserStore ?_
      rw [← isFound]
      simpa [plain, Option.isSome_iff_ne_none] using allowed
  | none =>
    simp only [verifyStoreAccessForQuery, plain, reduceCtorEq, if_false] at ends
    obtain ⟨⟨memberships, now⟩, between, looked, rest⟩ := ends.of_bind
    obtain ⟨isFound, rfl⟩ := lookUp_yields looked
    obtain ⟨rfl, rfl⟩ := rest.of_pure
    refine ⟨rfl, by simp, ?_⟩
    intro store covered
    obtain ⟨row, mem, rfl⟩ := List.mem_map.mp covered
    dsimp only at isFound
    rw [isFound] at mem
    exact Registry.isMember_of_getUserStores mem

/-- The owner belongs to the store, and the set names the view policy, bare or with the id of the store. -/
def MayView (registry : Registry) (ownerId : Uuid) (set : List Text) (storeId : Uuid) : Prop :=
  registry.IsMember ownerId storeId ∧ (viewInvoices ∈ set ∨
    ∃ text, viewInvoices ++ ':' :: text ∈ set ∧ parseUuid text = some storeId)

/-- What a set without `unrestricted` grants, it names. -/
theorem named_of_granted {policy : Text} {set : List Text} {storeId : Uuid} (limited : unrestricted ∉ set)
    (granted : keyGrantsStorePermission (some set) policy storeId = true) :
    policy ∈ set ∨ ∃ text, policy ++ ':' :: text ∈ set ∧ parseUuid text = some storeId := by
  obtain ⟨entry, mem, grants⟩ := List.any_eq_true.mp granted
  unfold entryGrants at grants
  split at grants
  next isWhole =>
    rcases isWhole with rfl | rfl
    · exact absurd mem limited
    · exact .inl mem
  split at grants
  next entryPolicy text split =>
    rw [Bool.and_eq_true, decide_eq_true_eq, decide_eq_true_eq] at grants
    obtain ⟨rfl, isStore⟩ := grants
    rw [Webhook.eq_of_splitOnce split] at mem
    exact .inr ⟨text, mem, isStore⟩
  · cases grants

theorem retains_of_limited {permissions : Option (List Text)} {set : List Text} (isSet : permissions = some set)
    (limited : unrestricted ∉ set) : keyRetainsUnrestrictedAccess permissions = false := by
  rw [isSet, keyRetainsUnrestrictedAccess, List.any_eq_false]
  rintro entry mem isEntry
  rw [of_decide_eq_true isEntry] at mem
  exact limited mem

/-- A scoped key lists no store beyond its owner's memberships and its own scope. -/
theorem listedStores_confined {token : Text} {key : ApiKey}
    (bears : extractBearerToken authorization = .ok token) (isKey : isApiKeyToken token = true)
    (found : registry.getApiKeyAuthInfo (app.hashApiKey token) = some key)
    {set : List Text} (isSet : key.permissions = some set) (limited : unrestricted ∉ set)
    {storeId : Option Uuid} (ends : (listedStores app authorization storeId).Yields registry scope registry') :
    registry' = registry ∧ scope ≠ .all ∧
      ∀ store, scope.Covers store → MayView registry key.userId set store := by
  obtain ⟨⟨user, keyScope⟩, between, caller, rest⟩ := ends.of_bind
  obtain ⟨validated, between', first, isCaller⟩ := caller.of_bind
  rw [validateSessionWithScope_of_key bears isKey] at first
  obtain ⟨rfl, other, isOther, passed⟩ := validateApiKey_yields first
  rw [found] at isOther
  cases isOther
  obtain ⟨isPair, rfl⟩ := isCaller.of_pure
  cases isPair
  obtain ⟨row, -, isRole⟩ := passed.role
  rw [narrowedRole_of_scoped (retains_of_limited isSet limited)] at isRole
  obtain ⟨verified, between'', access, last⟩ := rest.of_bind
  obtain ⟨rfl, bounded, members⟩ := verifyStoreAccessForQuery_yields isRole access
  split at last
  · exact last.of_fail.elim
  next narrowed done =>
    obtain ⟨rfl, rfl⟩ := last.of_pure
    refine ⟨rfl, narrowScopeByKey_bounded done bounded, fun store covered => ?_⟩
    obtain ⟨named, granted⟩ := covers_of_narrow done bounded covered
    rw [passed.scope, isSet] at granted
    exact ⟨passed.owner ▸ members store named, named_of_granted limited granted⟩

theorem selectPage_yields {limit offset : Int} {result : Nat × List ρ}
    (ends : (selectPage matching limit offset).Yields registry result registry') : registry' = registry ∧
      result.2 ⊆ matching registry := by
  obtain ⟨⟨total, now⟩, between, counted, rest⟩ := ends.of_bind
  obtain ⟨rfl, rfl⟩ := lookUp_yields counted
  obtain ⟨⟨rows, later⟩, between', selected, last⟩ := rest.of_bind
  obtain ⟨isRows, rfl⟩ := lookUp_yields selected
  cases rows with
  | none => exact last.of_fail.elim
  | some rows =>
    obtain ⟨rfl, rfl⟩ := last.of_pure
    simp only [page] at isRows
    split at isRows
    · cases isRows
    · cases isRows
      exact ⟨rfl, fun _ mem => List.mem_of_mem_drop (List.mem_of_mem_take mem)⟩

theorem exportPages_yields {pages : Nat} {offset : Int} {rows : List ρ}
    (ends : (exportPages matching pages offset).Yields registry rows registry') : rows ⊆ matching registry := by
  induction pages generalizing offset rows with
  | zero =>
    obtain ⟨rfl, -⟩ := ends.of_pure
    exact List.nil_subset _
  | succ pages ih =>
    obtain ⟨answer, between, tried, rest⟩ := ends.of_bind
    split at rest
    · obtain ⟨rfl, -⟩ := rest.of_pure
      exact List.nil_subset _
    · obtain ⟨rfl, -⟩ := rest.of_pure
      exact List.nil_subset _
    · obtain ⟨rfl, isPage⟩ := selectPage_yields tried.of_attempt
      obtain ⟨later, between', streamed, last⟩ := rest.of_bind
      obtain ⟨rfl, rfl⟩ := last.of_pure
      exact List.append_subset.mpr ⟨isPage, ih streamed⟩

theorem exportRows_yields {pages : Nat} {rows : List ρ}
    (ends : (exportRows matching pages).Yields registry rows registry') : rows ⊆ matching registry := by
  obtain ⟨⟨total, first⟩, between, counted, rest⟩ := ends.of_bind
  obtain ⟨rfl, -⟩ := selectPage_yields counted
  dsimp only at rest
  split at rest
  · exact rest.of_fail.elim
  · exact exportPages_yields rest

/-- The filters stand beside the stores of the scope. -/
theorem buildInvoiceFilterParams_stores
    (built : buildInvoiceFilterParams queries scope status currency search = .ok params) :
    params.storeId = scope.applyInvoice.storeId ∧ params.storeIds = scope.applyInvoice.storeIds := by
  unfold buildInvoiceFilterParams at built
  split at built
  · cases built
    exact ⟨rfl, rfl⟩
  · split at built
    · cases built
    · cases built
      exact ⟨rfl, rfl⟩

theorem buildPaymentFilterParams_stores {params : PaymentQueryParams}
    (built : buildPaymentFilterParams scope status search = .ok params) :
    params.storeId = scope.applyPayment.storeId ∧ params.storeIds = scope.applyPayment.storeIds := by
  unfold buildPaymentFilterParams at built
  split at built
  · cases built
    exact ⟨rfl, rfl⟩
  split at built
  · cases built
    exact ⟨rfl, rfl⟩
  · split at built
    · cases built
      exact ⟨rfl, rfl⟩
    · cases built

theorem covers_of_invoice (built : buildInvoiceFilterParams queries scope status currency search = .ok params)
    {invoice : Invoice} (listed : invoice ∈ params.matching queries registry) :
    scope.Covers invoice.storeId := by
  obtain ⟨isOne, isSet⟩ := buildInvoiceFilterParams_stores built
  obtain ⟨-, admitted⟩ := List.mem_filter.mp ((List.mem_insertionSort _).mp listed)
  simp only [InvoiceQueryParams.admits, isOne, isSet, Bool.and_eq_true] at admitted
  cases scope with
  | one id => simpa [StoreScope.applyInvoice, StoreScope.Covers] using admitted.1.1.1.1.1.1
  | membership ids => simpa [StoreScope.applyInvoice, StoreScope.Covers] using admitted.1.1.1.1.1.2
  | all => trivial

theorem covers_of_payment {params : PaymentQueryParams}
    (built : buildPaymentFilterParams scope status search = .ok params) {payment : Payment}
    (listed : payment ∈ params.matching queries registry) (bounded : scope ≠ .all) :
    ∃ storeId, storeOf registry payment = some storeId ∧ scope.Covers storeId := by
  obtain ⟨isOne, isSet⟩ := buildPaymentFilterParams_stores built
  obtain ⟨-, admitted⟩ := List.mem_filter.mp ((List.mem_insertionSort _).mp listed)
  simp only [PaymentQueryParams.admits, isOne, isSet, Bool.and_eq_true] at admitted
  cases scope with
  | one id => exact ⟨id, by simpa [StoreScope.applyPayment] using admitted.1.1.1.1, rfl⟩
  | membership ids =>
    have among := admitted.1.1.1.2
    simp only [StoreScope.applyPayment, Option.all_some, Option.any_eq_true, decide_eq_true_eq] at among
    exact among
  | all => exact absurd rfl bounded

theorem invoices_covered {query : ListInvoicesQuery} {rows : List Invoice}
    (ends : (∃ total, (listInvoices queries app authorization query).Yields registry (total, rows) registry') ∨
      ∃ pages, (exportInvoicesCsv queries app authorization query pages).Yields registry rows registry') :
    ∃ scope between, (listedStores app authorization query.storeId).Yields registry scope between ∧
      (between = registry → ∀ invoice ∈ rows, scope.Covers invoice.storeId) := by
  rcases ends with ⟨total, ends⟩ | ⟨pages, ends⟩ <;>
    obtain ⟨scope, between, stores, rest⟩ := ends.of_bind <;>
    refine ⟨scope, between, stores, ?_⟩ <;>
    rintro rfl invoice mem <;>
    split at rest
  · exact rest.of_fail.elim
  next params built => exact covers_of_invoice built ((selectPage_yields rest).2 mem)
  · exact rest.of_fail.elim
  next params built => exact covers_of_invoice built (exportRows_yields rest mem)

theorem payments_covered {query : ListPaymentsQuery} {rows : List Payment}
    (ends : (∃ total, (listPayments queries app authorization query).Yields registry (total, rows) registry') ∨
      ∃ pages, (exportPaymentsCsv queries app authorization query pages).Yields registry rows registry') :
    ∃ scope between, (listedStores app authorization query.storeId).Yields registry scope between ∧
      (between = registry → scope ≠ .all → ∀ payment ∈ rows,
        ∃ storeId, storeOf registry payment = some storeId ∧ scope.Covers storeId) := by
  rcases ends with ⟨total, ends⟩ | ⟨pages, ends⟩ <;>
    obtain ⟨scope, between, stores, rest⟩ := ends.of_bind <;>
    refine ⟨scope, between, stores, ?_⟩ <;>
    rintro rfl bounded payment mem <;>
    split at rest
  · exact rest.of_fail.elim
  next params built => exact covers_of_payment built ((selectPage_yields rest).2 mem) bounded
  · exact rest.of_fail.elim
  next params built => exact covers_of_payment built (exportRows_yields rest mem) bounded

end Shown

/--
Whatever a key with a limited scope asks a listing for, the stores it reads and
the rows it is shown are of stores its owner belongs to and its scope lets it view;
and no route that takes an authenticated user or an administrator lets it in.
-/
theorem scoped_key_confined (registry : Registry) (authorization : Option Text) (token : Text) (key : ApiKey)
    (bears : extractBearerToken authorization = .ok token) (isKey : isApiKeyToken token = true)
    (found : registry.getApiKeyAuthInfo (app.hashApiKey token) = some key)
    {set : List Text} (isSet : key.permissions = some set) (limited : unrestricted ∉ set) :
    (∀ storeId scope registry', (listedStores app authorization storeId).Yields registry scope registry' →
      ∀ store, scope.Covers store → MayView registry key.userId set store) ∧
    (∀ query rows registry',
      ((∃ total, (listInvoices queries app authorization query).Yields registry (total, rows) registry') ∨
        ∃ pages, (exportInvoicesCsv queries app authorization query pages).Yields registry rows registry') →
      ∀ invoice ∈ rows, MayView registry key.userId set invoice.storeId) ∧
    (∀ query rows registry',
      ((∃ total, (listPayments queries app authorization query).Yields registry (total, rows) registry') ∨
        ∃ pages, (exportPaymentsCsv queries app authorization query pages).Yields registry rows registry') →
      ∀ payment ∈ rows, ∃ storeId, storeOf registry payment = some storeId ∧
        MayView registry key.userId set storeId) ∧
    (∀ user registry', ¬ (authenticatedUser app authorization).Yields registry user registry') ∧
    ∀ user registry', ¬ (adminAuth app authorization).Yields registry user registry' := by
  have confined {storeId : Option Uuid} {scope : StoreScope} {registry' : Registry}
      (ends : (listedStores app authorization storeId).Yields registry scope registry') :=
    listedStores_confined bears isKey found isSet limited ends
  have refused {user : AccountInfo} {registry' : Registry} :
      ¬ (validateSession app authorization).Yields registry user registry' :=
    validateSession_refuses bears isKey found (retains_of_limited isSet limited)
  constructor
  · intro storeId scope registry' ends
    exact (confined ends).2.2
  constructor
  · intro query rows registry' ends invoice mem
    obtain ⟨scope, between, stores, covered⟩ := invoices_covered ends
    obtain ⟨same, -, viewed⟩ := confined stores
    exact viewed _ (covered same invoice mem)
  constructor
  · intro query rows registry' ends payment mem
    obtain ⟨scope, between, stores, covered⟩ := payments_covered ends
    obtain ⟨same, bounded, viewed⟩ := confined stores
    obtain ⟨storeId, isStore, named⟩ := covered same bounded payment mem
    exact ⟨storeId, isStore, viewed storeId named⟩
  constructor
  · intro user registry'
    exact refused
  · intro user registry' ends
    obtain ⟨validated, between, first, -⟩ := ends.of_bind
    exact refused first

theorem scoped_key_confined_viewer :
    viewerKey.permissions = some viewerScope ∧ MayView viewerRegistry 1 viewerScope 7 := by
  have listed : ((listedStores plainApp (some "Bearer ak_viewer".toList) none).toProc (fun _ => .ok 0) 0
      viewerRegistry).result = .ok (.membership [7]) := by decide +kernel
  obtain ⟨registry', ends⟩ := Thread.Yields.of_run listed
  have confined := scoped_key_confined ⟨fun _ => none, fun _ _ _ => false, fun _ _ => false⟩ plainApp
    viewerRegistry (some "Bearer ak_viewer".toList) "ak_viewer".toList viewerKey (by decide +kernel)
    (by decide +kernel) (by decide +kernel) rfl (by decide +kernel)
  exact ⟨rfl, confined.1 none _ registry' ends 7 (List.mem_singleton.mpr rfl)⟩

end EthPayServer.Api
