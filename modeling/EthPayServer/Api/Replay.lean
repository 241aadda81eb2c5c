import EthPayServer.Api.ExecutedOnce
import EthPayServer.Api.Extractors

/-!
# Stored responses and the callers they were made for

The idempotency middleware stands in front of the extractors: a stored response
is replayed to whoever sends the token and the key again, and the token is not
validated.  What is replayed was made for a caller who was let in when the
response was made; whether they would still be let in depends on what happened
to their session or key, and to their permissions, since then.
-/

namespace EthPayServer.Api.Replay

open Lib Data
open Idempotency
open Evm (Time Uuid)

/-! ## The routes behind the middleware -/

/-- `ethpay.store.cancreateinvoice`. -/
def createInvoicePolicy : Text := "ethpay.store.cancreateinvoice".toList

inductive Route where
  | createInvoice
  | cancelInvoice
  | createRefund
deriving DecidableEq

/-- The `POST` routes of the invoice router. -/
def routeOf (path : Text) : Option Route :=
  match path.splitOn '/' with
  | [[], []] => some .createInvoice
  | [[], _, last] =>
    if last = "cancel".toList then some .cancelInvoice
    else if last = "refund".toList then some .createRefund
    else none
  | _ => none

variable (app : AppState) (storeIdOf : Bytes → Option Uuid) (authorization : Option Text)
  (after : Moment → Moment) (index : Nat)

/-- What a route demands of its caller before it does anything; `storeIdOf` reads the store of a body. -/
def authorise (request : HttpRequest) : AuthT Unit :=
  match routeOf request.path with
  | none => Thread.fail ⟨.notFound, ""⟩
  | some .createInvoice => do
    let caller ← authenticatedCaller app request.authorization
    match storeIdOf request.body with
    | none => Thread.fail ⟨.badRequest, ""⟩
    | some storeId => do
      let (hasPermission, _) ←
        lookUp (Registry.userHasStorePermission caller.user.id storeId createInvoicePolicy)
          "Failed to check store permissions"
      if hasPermission && keyGrantsStorePermission caller.keyScope createInvoicePolicy storeId then pure ()
      else Thread.fail ⟨.forbidden, "Insufficient permissions to create invoices for this store"⟩
  | some .cancelInvoice => do
    let _ ← adminAuth app request.authorization
    pure ()
  | some .createRefund => do
    let _ ← authenticatedUser app request.authorization
    pure ()

def refundUnsupported : HttpResponse where
  status := 501
  headers := []
  body := utf8 "refunds are the merchant's responsibility: this server holds no spending key and cannot send funds. Refund the payer from your own wallet."

def rejectionResponse (rejection : Rejection) : HttpResponse :=
  ⟨rejection.status.asU16, [], utf8 rejection.message⟩

/-! ## Moments -/

/-- What the credential of a request is validated as at a moment. -/
def validatedAt (authorization : Option Text) (moment : Moment) : Option Validated :=
  ((validateSessionWithScope app authorization true).ask moment.now moment.registry).toOption

/-- The route would let the caller in. -/
def Accepted (request : HttpRequest) (moment : Moment) : Prop :=
  (authorise app storeIdOf request).ask moment.now moment.registry = .ok ()

/-- The credential stands for the same account with the same scope, and for an administrator if it did. -/
def Stands (authorization : Option Text) (validated : Validated) (moment : Moment) : Prop :=
  ∃ other, validatedAt app authorization moment = some other ∧ other.user.id = validated.user.id ∧
    other.keyScope = validated.keyScope ∧
    (validated.user.role = .serverAdmin → other.user.role = .serverAdmin)

/-- From one moment to the next nothing is taken from the credential, nor from its account. -/
def Keeps (authorization : Option Text) (before after : Moment) : Prop :=
  ∀ validated, validatedAt app authorization before = some validated →
    Stands app authorization validated after ∧
    ∀ storeId, before.registry.userHasStorePermission validated.user.id storeId createInvoicePolicy = true →
      after.registry.userHasStorePermission validated.user.id storeId createInvoicePolicy = true

/-! ## The server -/

/-- A response that was answered from the store, and when. -/
structure Replayed where
  request : HttpRequest
  moment : Moment

/-- Redis and the tables; whose handler is running, whose response is stored, and what was replayed. -/
structure Desk (Wire : Type) where
  space : Keyspace Wire
  moment : Moment
  busy : List (Nat × Option Text)
  holders : Text → Option HttpRequest
  replays : List Replayed

section Server

variable {Wire : Type}

abbrev DeskT (Wire : Type) : Type → Type := Thread Time Rejection (Desk Wire)

def Desk.begin (desk : Desk Wire) (index : Nat) (authorization : Option Text) : Desk Wire :=
  { desk with busy := (index, authorization) :: desk.busy }

def Desk.finish (desk : Desk Wire) (index : Nat) : Desk Wire :=
  { desk with busy := desk.busy.filter fun entry => entry.1 ≠ index }

/-- A Redis command: `none` is heard of an error; `noted` is kept in mind whatever is heard. -/
def redis {α : Type} (relied : Desk Wire → Prop) (command : Desk Wire → α × Desk Wire)
    (noted : Desk Wire → Desk Wire) : DeskT Wire (Option α) :=
  Thread.call relied
    (fun answer desk => noted (if answer.observed?.isSome then (command desk).2 else desk))
    fun answer desk => pure (if answer.error?.isNone then some (command desk).1 else none)

/-- The reads of a handler; while its response may still be stored, the handler counts as running. -/
def registryView (noted : Desk Wire → Desk Wire) : Thread.View Registry Rejection (Desk Wire) Rejection where
  part desk := desk.moment.registry
  replace registry desk := noted { desk with moment := { desk.moment with registry := registry } }
  fault := id
  report := id

/-- The handler; what it does for a caller it lets in is not looked at, and answered with `answer`. -/
def handler (noted : Desk Wire → Desk Wire) (request : HttpRequest) (answer : HttpResponse) :
    DeskT Wire HttpResponse := do
  match ← ((authorise app storeIdOf request).embed (registryView noted)).attempt with
  | .error rejection => pure (rejectionResponse rejection)
  | .ok () => pure (if routeOf request.path = some .createRefund then refundUnsupported else answer)

/-- A response stored under the key for the hash was made for the same request. -/
def HolderAgrees (digest : Bytes → Text) (request : HttpRequest) (cacheKey : Text) (desk : Desk Wire) : Prop :=
  ∀ holder, desk.holders cacheKey = some holder → computeHash digest holder = computeHash digest request →
    holder.authorization = request.authorization ∧ holder.path = request.path ∧ holder.body = request.body

def Desk.lookUp (serde : Serde Wire) (request : HttpRequest) (cacheKey requestHash : Text) (desk : Desk Wire) :
    CacheLookup × Desk Wire :=
  match classify serde requestHash (desk.space.value cacheKey) with
  | .replay response =>
    (.replay response, { desk with replays := desk.replays ++ [⟨request, desk.moment⟩] })
  | found => (found, desk)

def cacheLookup (serde : Serde Wire) (digest : Bytes → Text) (request : HttpRequest) (cacheKey : Text) :
    DeskT Wire CacheLookup := do
  match ← redis (HolderAgrees digest request cacheKey)
      (Desk.lookUp serde request cacheKey (computeHash digest request)) id with
  | none => pure .error
  | some found => pure found

def acquireLock (lockKey : Text) (index : Nat) : DeskT Wire Bool := do
  match ← redis (fun _ => True) (fun desk =>
      ((desk.space.setNx lockKey index).1, { desk with space := (desk.space.setNx lockKey index).2 })) id with
  | none => pure true
  | some acquired => pure acquired

def releaseLock (lockKey : Text) (index : Nat) : DeskT Wire Unit := do
  let _ ← redis (fun _ => True) (fun desk => ((), { desk with space := desk.space.put lockKey none }))
    fun desk => desk.finish index
  pure ()

def setEx (request : HttpRequest) (cacheKey : Text) (index : Nat) (wire : Wire) : DeskT Wire Unit := do
  let _ ← redis (fun _ => True) (fun desk => ((), { desk with
      space := desk.space.put cacheKey (some (.json wire))
      holders := Function.update desk.holders cacheKey (some request) })) fun desk => desk.finish index
  pure ()

def handleAndCache (serde : Serde Wire) (digest : Bytes → Text) (request : HttpRequest) (answer : HttpResponse)
    (cacheKey lockKey : Text) (index : Nat) : DeskT Wire HttpResponse := do
  let response ← handler app storeIdOf (fun desk => desk.begin index request.authorization) request answer
  if !response.isSuccess then do
    releaseLock lockKey index
    pure response
  else if maxResponseBody < response.body.length then do
    releaseLock lockKey index
    pure Idempotency.internalServerError
  else do
    match serde.toVec (cachedResponse (computeHash digest request) response) with
    | some json => setEx request cacheKey index json
    | none => pure ()
    releaseLock lockKey index
    pure response

def middleware (serde : Serde Wire) (digest : Bytes → Text) (request : HttpRequest) (answer : HttpResponse)
    (index : Nat) : DeskT Wire HttpResponse :=
  if request.method ≠ .post then handler app storeIdOf id request answer
  else
    match request.idempotencyKey with
    | none => handler app storeIdOf id request answer
    | some header =>
      match validateKey header with
      | none => pure invalidKeyResponse
      | some key =>
        match extractScope request with
        | none => handler app storeIdOf id request answer
        | some scope =>
          if maxRequestBody < request.body.length then pure payloadTooLarge
          else do
            match ← cacheLookup serde digest request (cacheKey scope key) with
            | .replay response => pure response
            | .conflict => pure conflictResponse
            | .error => handler app storeIdOf id request answer
            | .miss => do
              if ← acquireLock (lockKey scope key) index then
                handleAndCache app storeIdOf serde digest request answer (cacheKey scope key)
                  (lockKey scope key) index
              else pure inFlightResponse

/-! ## Histories -/

inductive Event where
  | http (request : HttpRequest) (answer : HttpResponse)
  /-- sessions and keys are issued, used, changed and revoked, and permissions with them -/
  | change (write : Registry → Registry)
  | pass (seconds : Nat)
  /-- an entry of Redis reaches the end of its life -/
  | expire (key : Text)

/-- A handler of the credential is running, or a response to one of its requests is stored. -/
def Standing (authorization : Option Text) (desk : Desk Wire) : Prop :=
  (∃ index, (index, authorization) ∈ desk.busy) ∨
    ∃ key request, desk.holders key = some request ∧ request.authorization = authorization

/-- Nothing is taken from a credential that stands behind a running handler or a stored response. -/
def Spares (after : Moment → Moment) (desk : Desk Wire) : Prop :=
  ∀ authorization, Standing authorization desk → Keeps app authorization desk.moment (after desk.moment)

def advance (after : Moment → Moment) : DeskT Wire Unit :=
  Thread.assuming (Spares app after)
    (Thread.statement fun _ desk => .ok ((), { desk with moment := after desk.moment }))

def expire (key : Text) : DeskT Wire Unit :=
  Thread.statement fun _ desk => .ok ((), { desk with
    space := desk.space.put key none
    holders := Function.update desk.holders key none })

/-- Requests come in and credentials come and go in any order; every read is told the time it happens. -/
def replayDesk (serde : Serde Wire) (digest : Bytes → Text) :
    Service Event Time Rejection (Desk Wire) (Option HttpResponse) where
  initial desk := desk.space.value = (fun _ => none) ∧ desk.busy = [] ∧ desk.holders = (fun _ => none) ∧
    desk.replays = []
  legal desk answer := ∀ observed, answer.observed? = some observed → observed = desk.moment.now
  body event index :=
    match event with
    | .http request answer => do
      let response ← middleware app storeIdOf serde digest request answer index
      pure (some response)
    | .change write => do
      advance app fun moment => { moment with registry := write moment.registry }
      pure none
    | .pass seconds => do
      advance app fun moment => { moment with now := moment.now + seconds }
      pure none
    | .expire key => do
      expire key
      pure none

end Server

/-! ## What a credential is validated as -/

variable {α β : Type} {request : HttpRequest}

section Credentials

variable {app storeIdOf} {authorization : Option Text} {token : Text} {moment before after : Moment}
  {validated : Validated}

/-- The key is active, not expired, and not past its grace period. -/
def keyStands (app : AppState) (key : ApiKey) (now : Time) : Bool :=
  key.isActive && !key.expiresAt.any (· < now) &&
    !key.deprecatedAt.any (isGraceExpired · now app.deprecationGraceSecs)

def validatedKey (key : ApiKey) (row : UserRow) : Validated :=
  ⟨{ AccountInfo.ofRow row with role := narrowedRole true key.permissions row.role }, key.isOperator,
    key.permissions⟩

theorem validateApiKey_ask (rawKey : Text) (now : Time) (registry : Registry) :
    ((validateApiKey app rawKey true).ask now registry).toOption =
      (registry.getApiKeyAuthInfo (app.hashApiKey rawKey)).bind fun key =>
        if keyStands app key now then (registry.getUser key.userId).map (validatedKey key) else none := by
  unfold validateApiKey
  simp only [Thread.ask_bind, ask_lookUp, Except.bind]
  cases registry.getApiKeyAuthInfo (app.hashApiKey rawKey) with
  | none => rfl
  | some key =>
    cases active : key.isActive <;>
      cases expired : key.expiresAt.any (· < now) <;>
      cases past : key.deprecatedAt.any (isGraceExpired · now app.deprecationGraceSecs) <;>
      cases owner : registry.getUser key.userId <;>
      simp [keyStands, validatedKey, AccountInfo.ofRow, Except.toOption, Except.bind, active, expired, past,
        owner]

theorem validatedAt_of_key (bears : extractBearerToken authorization = .ok token)
    (isKey : isApiKeyToken token = true) :
    validatedAt app authorization moment = some validated ↔
      ∃ key row, moment.registry.getApiKeyAuthInfo (app.hashApiKey token) = some key ∧
        keyStands app key moment.now = true ∧ moment.registry.getUser key.userId = some row ∧
        validatedKey key row = validated := by
  unfold validatedAt
  rw [validateSessionWithScope_of_key bears isKey, validateApiKey_ask]
  simp [Option.bind_eq_some_iff]

theorem Stands.refl (found : validatedAt app authorization moment = some validated) :
    Stands app authorization validated moment :=
  ⟨validated, found, rfl, rfl, id⟩

theorem Stands.keeps (keeps : Keeps app authorization before after)
    (stands : Stands app authorization validated before) : Stands app authorization validated after := by
  obtain ⟨other, found, sameId, sameScope, admin⟩ := stands
  obtain ⟨⟨last, isLast, lastId, lastScope, lastAdmin⟩, -⟩ := keeps other found
  exact ⟨last, isLast, lastId.trans sameId, lastScope.trans sameScope, fun was => lastAdmin (admin was)⟩

theorem Keeps.refl (authorization : Option Text) (moment : Moment) :
    Keeps app authorization moment moment :=
  fun _ found => ⟨.refl found, fun _ => id⟩

theorem Keeps.trans {between : Moment} (first : Keeps app authorization before between)
    (second : Keeps app authorization between after) : Keeps app authorization before after := by
  intro validated found
  obtain ⟨stands, permitted⟩ := first validated found
  refine ⟨stands.keeps second, fun storeId has => ?_⟩
  obtain ⟨other, isOther, sameId, -, -⟩ := stands
  rw [← sameId]
  refine (second other isOther).2 storeId ?_
  rw [sameId]
  exact permitted storeId has

/-- What a route demands of a caller with a valid credential. -/
def Demands (storeIdOf : Bytes → Option Uuid) (validated : Validated) (body : Bytes) (registry : Registry) :
    Route → Prop
  | .createInvoice => ∃ storeId, storeIdOf body = some storeId ∧
      registry.userHasStorePermission validated.user.id storeId createInvoicePolicy = true ∧
      keyGrantsStorePermission validated.keyScope createInvoicePolicy storeId = true
  | .cancelInvoice => keyRetainsUnrestrictedAccess validated.keyScope = true ∧
      validated.user.role = .serverAdmin
  | .createRefund => keyRetainsUnrestrictedAccess validated.keyScope = true

theorem accepted_iff :
    Accepted app storeIdOf request moment ↔ ∃ route validated, routeOf request.path = some route ∧
      validatedAt app request.authorization moment = some validated ∧
      Demands storeIdOf validated request.body moment.registry route := by
  unfold Accepted authorise validatedAt
  cases routeOf request.path with
  | none => simp
  | some route =>
    simp only [Option.some.injEq, exists_and_left, exists_eq_left']
    cases route with
    | createInvoice =>
      simp only [authenticatedCaller, Thread.ask_bind]
      cases (validateSessionWithScope app request.authorization true).ask moment.now moment.registry with
      | error e => simp [Except.bind, Except.toOption]
      | ok validated =>
        simp only [Except.bind, Except.toOption, Option.some.injEq, exists_eq_left', Demands]
        cases storeIdOf request.body with
        | none => simp
        | some storeId =>
          simp only [Thread.ask_bind, ask_lookUp, Except.bind, Option.some.injEq, exists_eq_left']
          split
          next granted => simpa using granted
          next refused => simpa using refused
    | cancelInvoice =>
      simp only [adminAuth, validateSession, Thread.ask_bind]
      cases (validateSessionWithScope app request.authorization true).ask moment.now moment.registry with
      | error e => simp [Except.bind, Except.toOption]
      | ok validated =>
        cases full : keyRetainsUnrestrictedAccess validated.keyScope <;>
          cases admin : validated.user.role <;>
          simp [Except.bind, Except.toOption, Demands, full, admin]
    | createRefund =>
      simp only [authenticatedUser, validateSession, Thread.ask_bind]
      cases (validateSessionWithScope app request.authorization true).ask moment.now moment.registry with
      | error e => simp [Except.bind, Except.toOption]
      | ok validated =>
        cases full : keyRetainsUnrestrictedAccess validated.keyScope <;>
          simp [Except.bind, Except.toOption, Demands, full]

theorem Demands.stands {validated other : Validated} {body : Bytes} {registry : Registry} {route : Route}
    (meets : Demands storeIdOf validated body registry route) (sameId : other.user.id = validated.user.id)
    (sameScope : other.keyScope = validated.keyScope)
    (admin : validated.user.role = .serverAdmin → other.user.role = .serverAdmin) :
    Demands storeIdOf other body registry route := by
  cases route with
  | createInvoice =>
    obtain ⟨storeId, isStore, permitted, granted⟩ := meets
    exact ⟨storeId, isStore, sameId ▸ permitted, sameScope ▸ granted⟩
  | cancelInvoice => exact ⟨sameScope ▸ meets.1, admin meets.2⟩
  | createRefund =>
    unfold Demands at meets ⊢
    rw [sameScope]
    exact meets

theorem Accepted.of_stands {route : Route} (isRoute : routeOf request.path = some route)
    (stands : Stands app request.authorization validated moment)
    (meets : Demands storeIdOf validated request.body moment.registry route) :
    Accepted app storeIdOf request moment := by
  obtain ⟨other, found, sameId, sameScope, admin⟩ := stands
  exact accepted_iff.mpr ⟨route, other, isRoute, found, meets.stands sameId sameScope admin⟩

theorem Accepted.keeps (keeps : Keeps app request.authorization before after)
    (accepted : Accepted app storeIdOf request before) : Accepted app storeIdOf request after := by
  obtain ⟨route, validated, isRoute, found, meets⟩ := accepted_iff.mp accepted
  obtain ⟨stands, permitted⟩ := keeps validated found
  refine .of_stands isRoute stands ?_
  cases route with
  | createInvoice =>
    obtain ⟨storeId, isStore, has, granted⟩ := meets
    exact ⟨storeId, isStore, permitted storeId has, granted⟩
  | cancelInvoice => exact meets
  | createRefund => exact meets

end Credentials

/-! ## What is stored stays acceptable -/

section Kept

variable {app storeIdOf} {Wire : Type} {serde : Serde Wire} {digest : Bytes → Text}

/-- Whoever a stored response was made for is let in, and so was everyone a response was replayed to. -/
structure Kept (app : AppState) (storeIdOf : Bytes → Option Uuid) (serde : Serde Wire) (digest : Bytes → Text)
    (desk : Desk Wire) : Prop where
  accepted : ∀ key request, desk.holders key = some request → Accepted app storeIdOf request desk.moment
  held : ∀ key wire, desk.space.value key = some (.json wire) → ∃ request entry,
    desk.holders key = some request ∧ serde.fromSlice wire = some entry ∧
    entry.requestHash = computeHash digest request
  replays : ∀ replay ∈ desk.replays, Accepted app storeIdOf replay.request replay.moment

/-- What a request that is being served can count on. -/
def Spared (app : AppState) (index : Nat) (desk desk' : Desk Wire) : Prop :=
  ∀ authorization, (index, authorization) ∈ desk.busy →
    (index, authorization) ∈ desk'.busy ∧ Keeps app authorization desk.moment desk'.moment

theorem Spared.refl (desk : Desk Wire) : Spared app index desk desk :=
  fun _ busy => ⟨busy, .refl _ _⟩

theorem Spared.trans {index : Nat} {desk desk' desk'' : Desk Wire} (first : Spared app index desk desk')
    (second : Spared app index desk' desk'') : Spared app index desk desk'' := by
  intro authorization busy
  obtain ⟨still, keeps⟩ := first authorization busy
  obtain ⟨last, keepsLast⟩ := second authorization still
  exact ⟨last, keeps.trans keepsLast⟩

variable (app storeIdOf serde digest) in
def replaySpec : Service.Spec (replayDesk app storeIdOf serde digest) where
  invariant := Kept app storeIdOf serde digest
  rely index := Spared app index
  guarantee _ index desk desk' :=
    Kept app storeIdOf serde digest desk' ∧ ∀ other, other ≠ index → Spared app other desk desk'
  fresh _ _ := True
  post _ _ _ _ := True
  failure _ _ _ _ := True

variable {event : Event} {index : Nat} {desk : Desk Wire}

/-- What a Redis command must show, whether it happens or not. -/
structure Harmless (app : AppState) (storeIdOf : Bytes → Option Uuid) (serde : Serde Wire)
    (digest : Bytes → Text) (index : Nat) (desk desk' : Desk Wire) : Prop where
  kept : Kept app storeIdOf serde digest desk'
  moment : desk'.moment = desk.moment
  busy : ∀ entry ∈ desk.busy, entry.1 ≠ index → entry ∈ desk'.busy

theorem Harmless.guarantees {desk' : Desk Wire} (harmless : Harmless app storeIdOf serde digest index desk desk') :
    ((replaySpec app storeIdOf serde digest).contract event index).guarantee desk desk' := by
  refine ⟨harmless.kept, fun other apart authorization isBusy => ?_⟩
  rw [harmless.moment]
  exact ⟨harmless.busy _ isBusy apart, .refl _ _⟩

theorem meets_redis {relied : Desk Wire → Prop} {command : Desk Wire → α × Desk Wire}
    {noted : Desk Wire → Desk Wire} {rest : Option α → DeskT Wire β}
    (acts : ∀ {between : Desk Wire}, Kept app storeIdOf serde digest between → relied between →
      Spared app index desk between →
      Harmless app storeIdOf serde digest index between (noted between) ∧
        Harmless app storeIdOf serde digest index between (noted (command between).2))
    (next : ∀ heard after, (rest heard).Meets ((replaySpec app storeIdOf serde digest).contract event index) Q
      (fun _ _ => True) after) :
    (redis relied command noted >>= rest).Meets ((replaySpec app storeIdOf serde digest).contract event index) Q
      (fun _ _ => True) desk := by
  rw [Thread.meets_bind]
  intro between spared kept premised answer legal
  obtain ⟨idle, acted⟩ := acts kept (premised trivial) spared
  refine ⟨?_, next _ _⟩
  cases answer with
  | ok observed => exact acted.guarantees
  | failed e => exact idle.guarantees
  | lost observed e => exact acted.guarantees

theorem Harmless.finish {desk' : Desk Wire} (harmless : Harmless app storeIdOf serde digest index desk desk') :
    Harmless app storeIdOf serde digest index desk (desk'.finish index) where
  kept := ⟨harmless.kept.accepted, harmless.kept.held, harmless.kept.replays⟩
  moment := harmless.moment
  busy entry isBusy apart := List.mem_filter.mpr ⟨harmless.busy entry isBusy apart, by simpa using apart⟩

section

variable (kept : Kept app storeIdOf serde digest desk)
include kept

theorem Harmless.refl : Harmless app storeIdOf serde digest index desk desk :=
  ⟨kept, rfl, fun _ isBusy _ => isBusy⟩

/-- An entry is written together with the request it was made for. -/
theorem Harmless.store (key : Text) {stored : Option (Stored Wire)} {holder : Option HttpRequest}
    (accepted : ∀ request ∈ holder, Accepted app storeIdOf request desk.moment)
    (held : ∀ wire, stored = some (.json wire) → ∃ request entry, holder = some request ∧
      serde.fromSlice wire = some entry ∧ entry.requestHash = computeHash digest request) :
    Harmless app storeIdOf serde digest index desk { desk with
      space := desk.space.put key stored
      holders := Function.update desk.holders key holder } := by
  refine ⟨⟨?_, ?_, kept.replays⟩, rfl, fun _ isBusy _ => isBusy⟩
  · intro other request isHolder
    dsimp only at isHolder
    by_cases same : other = key
    · rw [same, Function.update_self] at isHolder
      exact accepted request isHolder
    · rw [Function.update_of_ne same] at isHolder
      exact kept.accepted other request isHolder
  intro other wire isWire
  by_cases same : other = key
  · subst same
    rw [Keyspace.value_put_self] at isWire
    obtain ⟨request, entry, isRequest, rest⟩ := held wire isWire
    exact ⟨request, entry, (Function.update_self ..).trans isRequest, rest⟩
  · rw [Keyspace.value_put_of_ne _ _ same] at isWire
    obtain ⟨request, entry, isHolder, rest⟩ := kept.held other wire isWire
    exact ⟨request, entry, (Function.update_of_ne same ..).trans isHolder, rest⟩

/-- Writing anything but a response keeps what is stored. -/
theorem Harmless.put (key : Text) {stored : Option (Stored Wire)} (isPlain : ∀ wire, stored ≠ some (.json wire)) :
    Harmless app storeIdOf serde digest index desk { desk with space := desk.space.put key stored } := by
  rw [← Function.update_eq_self key desk.holders]
  exact .store kept key (kept.accepted key) fun wire isWire => absurd isWire (isPlain wire)

/-- What is replayed was made for a request that its caller may still make. -/
theorem Harmless.lookUp {cacheKey : Text} (agrees : HolderAgrees digest request cacheKey desk) :
    Harmless app storeIdOf serde digest index desk
      (desk.lookUp serde request cacheKey (computeHash digest request)).2 := by
  unfold Desk.lookUp
  split
  next response isReplay =>
    refine ⟨⟨kept.accepted, kept.held, ?_⟩, rfl, fun _ isBusy _ => isBusy⟩
    intro replay mem
    rcases List.mem_append.mp mem with old | new
    · exact kept.replays replay old
    rw [List.mem_singleton.mp new]
    obtain ⟨wire, isWire, entry, parses, isHash⟩ : ∃ wire, desk.space.value cacheKey = some (.json wire) ∧
        ∃ entry, serde.fromSlice wire = some entry ∧ entry.requestHash = computeHash digest request := by
      unfold classify at isReplay
      split at isReplay
      · cases isReplay
      · cases isReplay
      next wire isWire =>
        split at isReplay
        · cases isReplay
        next entry parses =>
          split at isReplay
          next isHash => exact ⟨wire, isWire, entry, parses, isHash⟩
          · cases isReplay
    obtain ⟨holder, other, isHolder, parsesOther, otherHash⟩ := kept.held cacheKey wire isWire
    rw [parses] at parsesOther
    cases parsesOther
    obtain ⟨sameCaller, samePath, sameBody⟩ := agrees holder isHolder (otherHash.symm.trans isHash)
    have accepted := kept.accepted cacheKey holder isHolder
    unfold Accepted authorise at accepted ⊢
    rw [sameCaller, samePath, sameBody] at accepted
    exact accepted
  · exact .refl kept

theorem Harmless.setEx {cacheKey : Text} {wire : Wire} {response : HttpResponse}
    (accepted : Accepted app storeIdOf request desk.moment)
    (isWire : serde.toVec (cachedResponse (computeHash digest request) response) = some wire) :
    Harmless app storeIdOf serde digest index desk
      { desk with
        space := desk.space.put cacheKey (some (.json wire))
        holders := Function.update desk.holders cacheKey (some request) } := by
  have parses := serde.roundTrip (cachedResponse (computeHash digest request) response)
  rw [isWire, Option.bind_some] at parses
  refine .store kept cacheKey ?_ ?_
  · rintro _ ⟨⟩
    exact accepted
  · rintro _ ⟨⟩
    exact ⟨request, _, rfl, parses, rfl⟩

end

/-! ### The handler lets in whom it should -/

structure Serving (app : AppState) (index : Nat) (authorization : Option Text) (validated : Validated)
    (desk : Desk Wire) : Prop where
  busy : (index, authorization) ∈ desk.busy
  stands : Stands app authorization validated desk.moment

theorem Serving.spared {authorization : Option Text} {validated : Validated} {desk' : Desk Wire}
    (serving : Serving app index authorization validated desk) (spared : Spared app index desk desk') :
    Serving app index authorization validated desk' := by
  obtain ⟨still, keeps⟩ := spared authorization serving.busy
  exact ⟨still, serving.stands.keeps keeps⟩

/-- The view of the tables while the response may still be stored. -/
abbrev servingView (index : Nat) (authorization : Option Text) :
    Thread.View Registry Rejection (Desk Wire) Rejection :=
  registryView fun desk => desk.begin index authorization

theorem Harmless.begin (kept : Kept app storeIdOf serde digest desk) (authorization : Option Text) :
    Harmless app storeIdOf serde digest index desk (desk.begin index authorization) :=
  ⟨⟨kept.accepted, kept.held, kept.replays⟩, rfl, fun _ isBusy _ => List.mem_cons_of_mem _ isBusy⟩

/-- A read of the handler is told what stands in the tables then. -/
theorem meets_lookUp {read : Registry → α} {message : String} {authorization : Option Text}
    {Q : α × Time → Desk Wire → Prop}
    (told : ∀ {between : Desk Wire}, Spared app index desk between →
      Q (read between.moment.registry, between.moment.now) (between.begin index authorization)) :
    ((lookUp read message).embed (servingView index authorization)).Meets
      ((replaySpec app storeIdOf serde digest).contract event index) Q (fun _ _ => True) desk := by
  intro between spared kept _ answer legal
  have begun : ((replaySpec app storeIdOf serde digest).contract event index).guarantee between
      (between.begin index authorization) := (Harmless.begin kept authorization).guarantees
  cases answer with
  | ok observed =>
    have now := legal observed rfl
    subst now
    exact ⟨begun, told spared⟩
  | failed e => exact ⟨begun, trivial⟩
  | lost observed e => exact ⟨begun, trivial⟩

/-- A key that passes its checks and whose owner is then found stands for what is handed on. -/
theorem validateApiKey_meets {authorization : Option Text} {token : Text}
    (bears : extractBearerToken authorization = .ok token) (isKey : isApiKeyToken token = true) :
    ((validateApiKey app token true).embed (servingView index authorization)).Meets
      ((replaySpec app storeIdOf serde digest).contract event index)
      (fun validated => Serving app index authorization validated) (fun _ _ => True) desk := by
  unfold validateApiKey
  rw [Thread.embed_bind, Thread.meets_bind]
  refine meets_lookUp ?_
  intro between _
  cases found : between.moment.registry.getApiKeyAuthInfo (app.hashApiKey token) with
  | none => trivial
  | some key =>
    dsimp only
    split
    · trivial
    next active =>
      split
      · trivial
      next unexpired =>
        split
        · trivial
        next fresh =>
          have stands : keyStands app key between.moment.now = true := by
            simp only [Bool.not_eq_true', Bool.not_eq_false, Bool.not_eq_true] at active unexpired fresh
            simp only [keyStands, active, unexpired, fresh]
            rfl
          obtain ⟨owner, isOwner⟩ := Registry.getUser_of_key found
          -- the key as it was read stands for its owner as they are then
          have serving : Serving app index authorization (validatedKey key owner)
              (between.begin index authorization) :=
            ⟨List.mem_cons_self, .refl ((validatedAt_of_key bears isKey).mpr
              ⟨key, owner, found, stands, isOwner, rfl⟩)⟩
          rw [Thread.embed_bind, Thread.meets_bind]
          refine meets_lookUp ?_
          intro later spared
          cases resolved : later.moment.registry.getUser key.userId with
          | none => trivial
          | some row =>
            refine ⟨List.mem_cons_self, ?_⟩
            obtain ⟨other, isOther, sameId, sameScope, -⟩ := (serving.spared spared).stands
            obtain ⟨lastKey, lastRow, lastFound, lastStands, lastOwner, rfl⟩ :=
              (validatedAt_of_key bears isKey).mp isOther
            have sameOwner : lastKey.userId = key.userId := by
              rw [← id_of_getUser lastOwner, ← id_of_getUser isOwner]
              exact sameId
            rw [sameOwner, resolved] at lastOwner
            cases lastOwner
            refine ⟨_, isOther, rfl, sameScope, fun admin => ?_⟩
            have scopes : lastKey.permissions = key.permissions := sameScope
            change narrowedRole true lastKey.permissions row.role = .serverAdmin
            rw [scopes]
            exact admin

theorem validatedAt_of_session {authorization : Option Text} {token : Text} {moment : Moment} {sessionId : Uuid}
    {user : AccountInfo} {session : Session} (bears : extractBearerToken authorization = .ok token)
    (isSession : isApiKeyToken token = false) (isId : parseUuid token = some sessionId)
    (valid : validSession app sessionId moment.now moment.registry = some (user, session)) :
    validatedAt app authorization moment = some ⟨user, false, none⟩ := by
  unfold validatedAt validateSessionWithScope validateSessionId
  simp [bears, isSession, isId, valid, Except.bind, Except.map, Except.toOption]

theorem validateSessionId_meets {authorization : Option Text} (sessionId : Uuid) :
    ((validateSessionId app sessionId).embed (servingView index authorization)).Meets
      ((replaySpec app storeIdOf serde digest).contract event index)
      (fun found desk => (index, authorization) ∈ desk.busy ∧
        validSession app sessionId desk.moment.now desk.moment.registry = some found)
      (fun _ _ => True) desk := by
  intro between _ kept _ answer legal
  have begun : ((replaySpec app storeIdOf serde digest).contract event index).guarantee between
      (between.begin index authorization) := (Harmless.begin kept authorization).guarantees
  cases answer with
  | failed e => exact ⟨begun, trivial⟩
  | lost observed e => exact ⟨begun, trivial⟩
  | ok observed =>
    have now := legal observed rfl
    subst now
    refine ⟨begun, ?_⟩
    have isPart : (servingView index authorization).part between = between.moment.registry := rfl
    cases valid : validSession app sessionId between.moment.now between.moment.registry with
    | none =>
      simp only [Answer.mapError, Answer.result, Thread.attempt, Thread.andThen, isPart, valid, Except.map]
      trivial
    | some found =>
      simp only [Answer.mapError, Answer.result, Thread.attempt, Thread.andThen, isPart, valid, Except.map]
      exact ⟨List.mem_cons_self, valid⟩

/-- Whoever is validated is served, and stands for what is handed on. -/
theorem validateSessionWithScope_meets :
    ((validateSessionWithScope app authorization true).embed (servingView index authorization)).Meets
      ((replaySpec app storeIdOf serde digest).contract event index)
      (fun validated => Serving app index authorization validated) (fun _ _ => True) desk := by
  cases bears : extractBearerToken authorization with
  | error rejection =>
    unfold validateSessionWithScope
    rw [bears]
    trivial
  | ok token =>
    by_cases isKey : isApiKeyToken token = true
    · rw [validateSessionWithScope_of_key bears isKey]
      exact validateApiKey_meets bears isKey
    rw [Bool.not_eq_true] at isKey
    unfold validateSessionWithScope
    simp only [bears, isKey, Bool.false_eq_true, if_false]
    cases isId : parseUuid token with
    | none => trivial
    | some sessionId =>
      simp only [Thread.embed_bind]
      refine (validateSessionId_meets sessionId).bind ?_
      rintro ⟨user, session⟩ later ⟨busy, valid⟩
      exact ⟨busy, .refl (validatedAt_of_session bears isKey isId valid)⟩

/-- Who is let in by a route is let in at the moment the handler goes on. -/
theorem authorise_meets (request : HttpRequest) :
    ((authorise app storeIdOf request).embed (servingView index request.authorization)).Meets
      ((replaySpec app storeIdOf serde digest).contract event index)
      (fun _ desk => (index, request.authorization) ∈ desk.busy ∧
        Accepted app storeIdOf request desk.moment)
      (fun _ _ => True) desk := by
  have validated : ((validateSessionWithScope app request.authorization true).embed
      (servingView index request.authorization)).Meets
      ((replaySpec app storeIdOf serde digest).contract event index)
      (fun validated => Serving app index request.authorization validated) (fun _ _ => True) desk :=
    validateSessionWithScope_meets request.authorization
  unfold authorise
  cases isRoute : routeOf request.path with
  | none => trivial
  | some route =>
    cases route with
    | createInvoice =>
      simp only [authenticatedCaller, Thread.embed_bind]
      refine validated.bind ?_
      intro caller between serving
      cases isStore : storeIdOf request.body with
      | none => trivial
      | some storeId =>
        simp only [Thread.embed_bind, Thread.meets_bind]
        refine meets_lookUp ?_
        intro later spared
        dsimp only
        split
        next granted =>
          rw [Bool.and_eq_true] at granted
          have still := serving.spared spared
          exact ⟨List.mem_cons_self, .of_stands isRoute still.stands ⟨storeId, isStore, granted⟩⟩
        · trivial
    | cancelInvoice =>
      simp only [adminAuth, validateSession, Thread.embed_bind, Thread.meets_bind]
      refine validated.mono ?_ fun _ _ _ => trivial
      intro caller between serving
      split
      · trivial
      next full =>
        change ((if caller.user.role ≠ .serverAdmin then
            (Thread.fail ⟨.forbidden, "Admin access required"⟩ : AuthT AccountInfo)
          else pure caller.user).embed _).Meets _ _ _ between
        split
        · trivial
        next admin =>
          refine ⟨serving.busy, .of_stands isRoute serving.stands ?_⟩
          simpa [Demands] using And.intro full admin
    | createRefund =>
      simp only [authenticatedUser, validateSession, Thread.embed_bind, Thread.meets_bind]
      refine validated.mono ?_ fun _ _ _ => trivial
      intro caller between serving
      split
      · trivial
      next full =>
        refine ⟨serving.busy, .of_stands isRoute serving.stands ?_⟩
        simpa [Demands] using full

theorem rejectionResponse_isSuccess (rejection : Rejection) : (rejectionResponse rejection).isSuccess = false := by
  obtain ⟨status, message⟩ := rejection
  cases status <;> rfl

/-- A handler answers with a success only whom it lets in. -/
theorem handler_meets (request : HttpRequest) (answer : HttpResponse) :
    (handler app storeIdOf (fun desk => desk.begin index request.authorization) request answer).Meets
      ((replaySpec app storeIdOf serde digest).contract event index)
      (fun response desk => response.isSuccess = true →
        (index, request.authorization) ∈ desk.busy ∧ Accepted app storeIdOf request desk.moment)
      (fun _ _ => True) desk := by
  unfold handler
  rw [Thread.meets_bind, Thread.meets_attempt]
  refine (authorise_meets request).mono ?_ ?_
  · intro _ later accepted _
    exact accepted
  · intro rejection later _ success
    rw [rejectionResponse_isSuccess] at success
    cases success

theorem releaseLock_meets {rest : Unit → DeskT Wire β} (lockKey : Text)
    (next : ∀ after, (rest ()).Meets ((replaySpec app storeIdOf serde digest).contract event index) Q
      (fun _ _ => True) after) :
    (releaseLock lockKey index >>= rest).Meets ((replaySpec app storeIdOf serde digest).contract event index) Q
      (fun _ _ => True) desk := by
  rw [Thread.meets_bind]
  refine meets_redis ?_ fun _ after => next after
  intro between kept _ _
  exact ⟨(Harmless.refl kept).finish, (Harmless.put kept lockKey (by simp)).finish⟩

theorem handleAndCache_meets (request : HttpRequest) (answer : HttpResponse) (cacheKey lockKey : Text) :
    (handleAndCache app storeIdOf serde digest request answer cacheKey lockKey index).Respects
      ((replaySpec app storeIdOf serde digest).contract event index) desk := by
  unfold Thread.Respects handleAndCache
  refine (handler_meets request answer).bind ?_
  intro response between accepted
  split
  · exact releaseLock_meets lockKey fun _ => trivial
  next success =>
    split
    · exact releaseLock_meets lockKey fun _ => trivial
    cases isWire : serde.toVec (cachedResponse (computeHash digest request) response) with
    | none => exact releaseLock_meets lockKey fun _ => trivial
    | some wire =>
      unfold setEx
      rw [Thread.meets_bind]
      refine meets_redis ?_ fun _ _ => releaseLock_meets lockKey fun _ => trivial
      intro later kept _ spared
      have isSuccess : response.isSuccess = true := by simpa using success
      obtain ⟨busy, was⟩ := accepted isSuccess
      have still := was.keeps (spared request.authorization busy).2
      exact ⟨(Harmless.refl kept).finish, (Harmless.setEx kept still isWire).finish⟩

theorem authorise_readOnly (request : HttpRequest) : (authorise app storeIdOf request).ReadOnly := by
  unfold authorise
  split
  · exact .fail _
  · refine (validateSessionWithScope_readOnly app _ _).bind fun caller => ?_
    split
    · exact .fail _
    refine (lookUp_readOnly _ _).bind ?_
    rintro ⟨hasPermission, now⟩
    dsimp only
    split
    · exact .pure _
    · exact .fail _
  · exact (adminAuth_readOnly app _).bind fun _ => .pure _
  · exact (validateSession_readOnly app _).bind fun _ => .pure _

theorem handler_passes (request : HttpRequest) (answer : HttpResponse) :
    (handler app storeIdOf id request answer).Respects
      ((replaySpec app storeIdOf serde digest).contract event index) desk := by
  have reads : ((authorise app storeIdOf request).embed (registryView (id : Desk Wire → Desk Wire))).ReadOnly :=
    (authorise_readOnly request).embed fun _ => rfl
  unfold Thread.Respects handler
  refine (reads.attempt.keeps (P := fun _ => True) ?_ (fun _ _ => trivial) trivial).bind ?_
  · intro desk kept
    exact (Harmless.refl kept).guarantees
  · rintro (rejection | passed) later - <;> trivial

theorem acquireLock_meets {rest : Bool → DeskT Wire β} (lockKey : Text)
    (next : ∀ acquired after, (rest acquired).Meets ((replaySpec app storeIdOf serde digest).contract event index)
      Q (fun _ _ => True) after) :
    (acquireLock lockKey index >>= rest).Meets ((replaySpec app storeIdOf serde digest).contract event index) Q
      (fun _ _ => True) desk := by
  unfold acquireLock
  rw [Thread.meets_bind]
  refine meets_redis ?_ ?_
  · intro between kept _ _
    refine ⟨.refl kept, ?_⟩
    unfold Keyspace.setNx
    split
    · exact .refl kept
    · exact .put kept lockKey (by simp)
  · rintro (none | acquired) after
    · exact next true after
    · exact next acquired after

theorem middleware_meets (request : HttpRequest) (answer : HttpResponse) :
    (middleware app storeIdOf serde digest request answer index).Respects
      ((replaySpec app storeIdOf serde digest).contract event index) desk := by
  unfold Thread.Respects middleware
  split
  · exact handler_passes request answer
  split
  · exact handler_passes request answer
  split
  · trivial
  split
  · exact handler_passes request answer
  split
  · trivial
  unfold cacheLookup
  rw [Thread.meets_bind]
  refine meets_redis ?_ ?_
  · intro between kept agrees _
    exact ⟨.refl kept, .lookUp kept agrees⟩
  rintro (none | ⟨response⟩ | conflict | miss | error) after
  · exact handler_passes request answer
  · trivial
  · trivial
  · refine acquireLock_meets _ ?_
    rintro (refused | acquired) later
    · trivial
    · exact handleAndCache_meets request answer _ _
  · exact handler_passes request answer

/-- Where nothing is taken from a credential that stands behind something, all stays acceptable. -/
theorem advance_meets :
    (advance app after).Respects ((replaySpec app storeIdOf serde digest).contract event index) desk := by
  refine Thread.Meets.whatever (fun _ => True) ?_ (fun _ kept => ⟨(Harmless.refl kept).guarantees, trivial⟩)
    (fun _ => trivial) fun _ => trivial
  rintro between now a last - kept spares - ⟨⟩
  refine ⟨⟨⟨?_, kept.held, kept.replays⟩, ?_⟩, trivial⟩
  · intro key request isHolder
    exact (kept.accepted key request isHolder).keeps
      (spares trivial request.authorization (.inr ⟨key, request, isHolder, rfl⟩))
  · intro other _ authorization busy
    exact ⟨busy, spares trivial authorization (.inl ⟨other, busy⟩)⟩

theorem replaySpec_sound : (replaySpec app storeIdOf serde digest).Sound where
  initially := by
    rintro desk ⟨isEmpty, -, unheld, unused⟩
    refine ⟨⟨?_, ?_, ?_⟩, fun _ => trivial⟩
    · intro key request isHolder
      rw [unheld] at isHolder
      cases isHolder
    · intro key wire isWire
      rw [isEmpty] at isWire
      cases isWire
    · intro replay mem
      rw [unused] at mem
      cases mem
  refl index desk := .refl index desk
  trans first second := first.trans second
  keeps _ kept := kept.1
  compatible apart _ kept := kept.2 _ (Ne.symm apart)
  freshKept _ _ _ := trivial
  postStable _ _ := trivial
  failureStable _ _ := trivial
  meets := by
    intro event index desk _ _
    cases event with
    | http request answer =>
      change (middleware app storeIdOf serde digest request answer index >>= _).Meets _ _ _ desk
      exact (middleware_meets request answer).bind fun _ _ _ => trivial
    | change write =>
      change (advance app _ >>= _).Meets _ _ _ desk
      exact (advance_meets _).bind fun _ _ _ => trivial
    | pass seconds =>
      change (advance app _ >>= _).Meets _ _ _ desk
      exact (advance_meets _).bind fun _ _ _ => trivial
    | expire key =>
      change (expire key >>= _).Meets _ _ _ desk
      rw [Thread.meets_bind]
      change (Thread.assuming (fun _ => True) (Thread.statement _)).Meets _ _ _ desk
      refine Thread.Meets.whatever (fun _ => True) ?_
        (fun _ kept => ⟨(Harmless.refl kept).guarantees, trivial⟩) (fun _ => trivial) fun _ => trivial
      rintro between now a last - kept - - ⟨⟩
      exact ⟨(Harmless.store kept key (by simp) (by simp)).guarantees, trivial⟩

end Kept

/--
In every history in which nothing is taken from a credential while a handler
runs for it or a response to it is stored, and in which two requests that share
a stored response are the same request, every response that is answered from
the store goes to a caller whose credential is valid and whom the route would
let in at that moment.
-/
theorem replays_accepted {Wire : Type} {serde : Serde Wire} {digest : Bytes → Text}
    {pool : Pool Event Time Rejection (Desk Wire) (Option HttpResponse)}
    (reached : (replayDesk app storeIdOf serde digest).timely.Reachable pool) :
    ∀ replay ∈ pool.shared.replays,
      (validatedAt app replay.request.authorization replay.moment).isSome = true ∧
        Accepted app storeIdOf replay.request replay.moment := by
  intro replay mem
  have accepted := (replaySpec_sound.holds reached).invariant.replays replay mem
  obtain ⟨route, validated, -, found, -⟩ := accepted_iff.mp accepted
  rw [found]
  exact ⟨rfl, accepted⟩

/-! ## Callers who would be refused -/

def creatorRegistry : Registry := { clerkRegistry with storePermissions := fun _ _ => [createInvoicePolicy] }

def signOut (registry : Registry) : Registry :=
  { registry with
    sessions := Table.empty
    sessionOwner := by simp }

def clerkDesk : Desk CachedResponse := ⟨emptyKeyspace, ⟨creatorRegistry, 0⟩, [], fun _ => none, []⟩

abbrev clerkService : Service Event Time Rejection (Desk CachedResponse) (Option HttpResponse) :=
  replayDesk clerkApp (fun _ => some 7) plainSerde fun bytes => bytes.map fun byte => Char.ofNat byte.toNat

def creationBy (token key : Text) : HttpRequest where
  method := .post
  path := ['/']
  idempotencyKey := some key
  authorization := some ("Bearer ".toList ++ token)
  body := []

def step (index : Nat) : PoolAction Event Time Rejection := .run index (.ok 0)

/-- The clerk creates an invoice and its response is stored. -/
def firstCreation (key : Text) : List (PoolAction Event Time Rejection) :=
  .start (.http (creationBy clerkToken key) created) :: List.replicate 6 (step 0)

def afterSignOut : Pool Event Time Rejection (Desk CachedResponse) (Option HttpResponse) :=
  clerkService.after clerkDesk (firstCreation ['k'] ++ [.start (.change signOut), step 1,
    .start (.http (creationBy clerkToken ['k']) created), step 2])

/-- Or the request comes under a token that is no session, with the rest of the key in it. -/
def byStranger : Pool Event Time Rejection (Desk CachedResponse) (Option HttpResponse) :=
  clerkService.after clerkDesk (firstCreation ['x', ':', 'k'] ++
    [.start (.http (creationBy (clerkToken ++ [':', 'x']) ['k']) created), step 1])

def isPunctual (pool : Pool Event Time Rejection (Desk CachedResponse) (Option HttpResponse))
    (action : PoolAction Event Time Rejection) : Bool :=
  match action with
  | .start _ => true
  | .run _ answer => answer.observed?.all (· = pool.shared.moment.now)

theorem legal_of_isPunctual {pool : Pool Event Time Rejection (Desk CachedResponse) (Option HttpResponse)}
    {action : PoolAction Event Time Rejection} (punctual : isPunctual pool action = true) :
    clerkService.Legal pool action := by
  cases action with
  | start event => trivial
  | run index answer =>
    intro observed isObserved
    simpa [isPunctual, isObserved] using punctual

/-- A response was answered from the store to a credential that is not valid then. -/
def answersRefused (pool : Pool Event Time Rejection (Desk CachedResponse) (Option HttpResponse)) : Bool :=
  pool.shared.replays.any fun replay =>
    (validatedAt clerkApp replay.request.authorization replay.moment).isNone

theorem replays_to_refused_callers :
    (clerkService.system.Reachable afterSignOut ∧ answersRefused afterSignOut = true) ∧
      clerkService.system.Reachable byStranger ∧ answersRefused byStranger = true := by
  have initial : clerkService.initial clerkDesk := ⟨rfl, rfl, rfl, rfl⟩
  constructor
  · exact ⟨Service.reachable_of_checks legal_of_isPunctual initial (by decide +kernel), by decide +kernel⟩
  · exact ⟨Service.reachable_of_checks legal_of_isPunctual initial (by decide +kernel), by decide +kernel⟩

def whileSignedIn : Pool Event Time Rejection (Desk CachedResponse) (Option HttpResponse) :=
  clerkService.after clerkDesk (firstCreation ['k'] ++
    [.start (.http (creationBy clerkToken ['k']) created), step 1])

theorem replays_accepted_clerk :
    ∃ replay ∈ whileSignedIn.shared.replays, Accepted clerkApp (fun _ => some 7) replay.request replay.moment := by
  have told {pool : Pool Event Time Rejection (Desk CachedResponse) (Option HttpResponse)} {index : Nat}
      (isNow : pool.shared.moment.now = 0) : clerkService.Legal pool (step index) := by
    rintro observed ⟨⟩
    exact isNow.symm
  have reached : clerkService.timely.Reachable whileSignedIn := by
    have initial : clerkService.initial clerkDesk := ⟨rfl, rfl, rfl, rfl⟩
    refine Service.timely_of_path initial ⟨⟨⟨trivial, rfl⟩, trivial⟩,
      ⟨⟨told (by decide +kernel), rfl⟩, ?_⟩, ⟨⟨told (by decide +kernel), rfl⟩, ?_⟩,
      ⟨⟨told (by decide +kernel), rfl⟩, ?_⟩, ⟨⟨told (by decide +kernel), rfl⟩, ?_⟩,
      ⟨⟨told (by decide +kernel), rfl⟩, ?_⟩, ⟨⟨told (by decide +kernel), rfl⟩, ?_⟩,
      ⟨⟨trivial, rfl⟩, trivial⟩, ⟨⟨told (by decide +kernel), rfl⟩, ?_⟩, trivial⟩
    · -- nothing is stored yet
      rintro running ⟨⟩ holder isHolder
      cases isHolder
    · rintro running ⟨⟩
      trivial
    · rintro running ⟨⟩
      trivial
    · rintro running ⟨⟩
      trivial
    · rintro running ⟨⟩
      trivial
    · rintro running ⟨⟩
      trivial
    · -- what is stored was made for this request
      rintro running ⟨⟩ holder isHolder -
      cases isHolder
      exact ⟨rfl, rfl, rfl⟩
  have one : whileSignedIn.shared.replays.length = 1 := by decide +kernel
  obtain ⟨replay, isReplay⟩ := List.length_eq_one_iff.mp one
  have mem : replay ∈ whileSignedIn.shared.replays := by
    rw [isReplay]
    exact List.mem_singleton_self replay
  exact ⟨replay, mem, (replays_accepted clerkApp (fun _ => some 7) reached replay mem).2⟩

end EthPayServer.Api.Replay
