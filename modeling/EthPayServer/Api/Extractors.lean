import EthPayServer.Data.Accounts
import EthPayServer.Api.Idempotency
import EthPayServer.Webhook.Queue

/-!
# Who a request comes from

The extractors of `api/extractors.rs`.  A bearer token that starts with `ak_`
is an API key, any other is the id of a session.  A key may carry a scope; a
scoped key of an administrator runs as a plain user, and the extractors that
hand on no scope refuse a scoped key altogether.
-/

namespace EthPayServer.Api

open Lib Data
open Idempotency (toStr)
open Webhook (splitOnce)
open Evm (Time Uuid)

/-! ## What a key's scope grants -/

def parseHyphenated (text : Text) : Option Uuid :=
  if (text.splitOn '-').map List.length = [8, 4, 4, 4, 12] then
    readDigits (lower (text.splitOn '-').flatten)
  else none

/-- `Uuid::parse_str`: bare digits, hyphenated, in braces, or as a URN. -/
def parseUuid (text : Text) : Option Uuid :=
  if text.length = 32 then readDigits (lower text)
  else if text.length = 36 then parseHyphenated text
  else if text.length = 38 then do
    let inner ← text.dropPrefix? ['\x7b']
    if inner.getLast? = some '\x7d' then parseHyphenated inner.dropLast else none
  else if text.length = 45 then do
    let inner ← text.dropPrefix? "urn:uuid:".toList
    parseHyphenated inner
  else none

/-- `Policies::UNRESTRICTED`. -/
def unrestricted : Text := "unrestricted".toList

def keyRetainsUnrestrictedAccess (permissions : Option (List Text)) : Bool :=
  match permissions with
  | none => true
  | some set => set.any fun entry => entry = unrestricted

/-- Whether one entry of a scope grants a policy on a store: bare, or for one store. -/
def entryGrants (policy : Text) (storeId : Uuid) (entry : Text) : Bool :=
  if entry = unrestricted ∨ entry = policy then true
  else
    match splitOnce ':' entry with
    | some (entryPolicy, entryStoreId) => entryPolicy = policy && parseUuid entryStoreId = some storeId
    | none => false

def keyGrantsStorePermission (permissions : Option (List Text)) (policy : Text) (storeId : Uuid) : Bool :=
  match permissions with
  | none => true
  | some set => set.any (entryGrants policy storeId)

/-! ## Validating a credential -/

inductive Status where
  | badRequest
  | unauthorized
  | forbidden
  | notFound
  | conflict
  | payloadTooLarge
  | tooManyRequests
  | internalServerError
deriving DecidableEq, Repr

def Status.asU16 : Status → Nat
  | .badRequest => 400
  | .unauthorized => 401
  | .forbidden => 403
  | .notFound => 404
  | .conflict => 409
  | .payloadTooLarge => 413
  | .tooManyRequests => 429
  | .internalServerError => 500

/-- A refusal; handlers that answer with a bare status leave the message empty. -/
structure Rejection where
  status : Status
  message : String
deriving DecidableEq, Repr

/-- The tables and the clock. -/
structure Moment where
  registry : Registry
  now : Time

/-- An extractor, and a handler behind it: reads of the tables. -/
abbrev AuthT : Type → Type := Thread Time Rejection Registry

/-- What the extractors take from the server beside the database. -/
structure AppState where
  /-- SHA-256 in hex -/
  hashApiKey : Text → Text
  /-- `API_KEY_DEPRECATION_GRACE_SECS` -/
  deprecationGraceSecs : Int
  /-- the session service's judgement of a stored session of an account -/
  accepts : Session → UserRow → Time → Bool
  /-- `Role::from_str` -/
  parseRole : Text → Option Role

structure AccountInfo where
  id : Uuid
  email : Option Text
  primaryWalletAddress : Option Text
  role : Role
deriving DecidableEq

def AccountInfo.ofRow (row : UserRow) : AccountInfo :=
  ⟨row.id, row.columns.email, row.columns.primaryWalletAddress, row.role⟩

def extractBearerToken (authorization : Option Text) : Except Rejection Text :=
  match authorization with
  | none => .error ⟨.unauthorized, "Missing Authorization header"⟩
  | some header =>
    match toStr header with
    | none => .error ⟨.unauthorized, "Invalid Authorization header"⟩
    | some text =>
      match text.dropPrefix? "Bearer ".toList with
      | none => .error ⟨.unauthorized, "Invalid Authorization format"⟩
      | some token => .ok token

/-- One read, with the clock as it stands then; an error of the database is answered 500. -/
def lookUp {α : Type} (read : Registry → α) (message : String) : AuthT (α × Time) := do
  match ← (Thread.statement fun now registry => .ok ((read registry, now), registry)).attempt with
  | .ok found => pure found
  | .error _ => Thread.fail ⟨.internalServerError, message⟩

def isGraceExpired (deprecatedAt now : Time) (graceSecs : Int) : Bool := deprecatedAt + graceSecs < now

/-- A scoped key of an administrator runs as a plain user. -/
def narrowedRole (narrowRole : Bool) (permissions : Option (List Text)) (role : Role) : Role :=
  if narrowRole && role = .serverAdmin && !keyRetainsUnrestrictedAccess permissions then .user else role

/-- An authenticated request: the account, whether the key is an operator's, and the key's scope. -/
structure Validated where
  user : AccountInfo
  isOperator : Bool
  keyScope : Option (List Text)
deriving DecidableEq

variable (app : AppState) (sessionId : Uuid)

def validateApiKey (rawKey : Text) (narrowRole : Bool) : AuthT Validated := do
  match ← lookUp (Registry.getApiKeyAuthInfo (app.hashApiKey rawKey)) "Database error" with
  | (none, _) => Thread.fail ⟨.unauthorized, "Invalid API key"⟩
  | (some key, now) =>
    if !key.isActive then Thread.fail ⟨.unauthorized, "API key revoked"⟩
    else if key.expiresAt.any (· < now) then Thread.fail ⟨.unauthorized, "API key expired"⟩
    else if key.deprecatedAt.any (isGraceExpired · now app.deprecationGraceSecs) then
      Thread.fail ⟨.unauthorized, "API key deprecated and grace period expired"⟩
    else do
      match ← lookUp (Registry.getUser key.userId) "Failed to resolve user" with
      | (none, _) => Thread.fail ⟨.internalServerError, "User not found"⟩
      | (some row, _) =>
        let user := AccountInfo.ofRow row
        pure ⟨{ user with role := narrowedRole narrowRole key.permissions user.role },
          key.isOperator, key.permissions⟩

/-- What the session service answers for a session id. -/
def validSession (sessionId : Uuid) (now : Time) (registry : Registry) :
    Option (AccountInfo × Session) := do
  let session ← registry.getSession sessionId
  let row ← registry.getUser session.userId
  if app.accepts session row now then some (.ofRow row, session) else none

/-- `auth_service.validate_session`: every failure is answered the same. -/
def validateSessionId (sessionId : Uuid) : AuthT (AccountInfo × Session) := do
  match ← (Thread.statement fun now registry =>
      .ok (validSession app sessionId now registry, registry)).attempt with
  | .ok (some found) => pure found
  | .ok none => Thread.fail ⟨.unauthorized, "Invalid or expired session"⟩
  | .error _ => Thread.fail ⟨.unauthorized, "Invalid or expired session"⟩

def isApiKeyToken (token : Text) : Bool := "ak_".toList.isPrefixOf token

def validateSessionWithScope (authorization : Option Text) (narrowRole : Bool) : AuthT Validated :=
  match extractBearerToken authorization with
  | .error rejection => Thread.fail rejection
  | .ok token =>
    if isApiKeyToken token then validateApiKey app token narrowRole
    else
      match parseUuid token with
      | none => Thread.fail ⟨.unauthorized, "Invalid session ID format"⟩
      | some sessionId => do
        let (user, _) ← validateSessionId app sessionId
        pure ⟨user, false, none⟩

/-- The way of the extractors that hand on no scope. -/
def validateSession (authorization : Option Text) : AuthT AccountInfo := do
  let validated ← validateSessionWithScope app authorization true
  if !keyRetainsUnrestrictedAccess validated.keyScope then
    Thread.fail ⟨.forbidden,
      "This API key is limited to specific store permissions and cannot be used here"⟩
  else pure validated.user

/-! ## The extractors -/

def authenticatedUser (authorization : Option Text) : AuthT AccountInfo := validateSession app authorization

/-- `REAUTH_FRESHNESS`, in seconds. -/
def reauthFreshness : Nat := 5 * 60

def isReauthStale (sessionCreatedAt now : Time) : Bool := sessionCreatedAt + reauthFreshness < now

def freshlyAuthenticatedUser (authorization : Option Text) : AuthT AccountInfo :=
  match extractBearerToken authorization with
  | .error rejection => Thread.fail rejection
  | .ok token =>
    if isApiKeyToken token then
      Thread.fail ⟨.unauthorized, "This action requires a fresh sign-in, not an API key"⟩
    else
      match parseUuid token with
      | none => Thread.fail ⟨.unauthorized, "Invalid session ID format"⟩
      | some sessionId => do
        let (user, session) ← validateSessionId app sessionId
        let now ← Thread.statement fun now registry => .ok (now, registry)
        if isReauthStale session.createdAt now then
          Thread.fail ⟨.unauthorized,
            "This action requires a fresh sign-in. Please log in again and retry."⟩
        else pure user

def adminAuth (authorization : Option Text) : AuthT AccountInfo := do
  let user ← validateSession app authorization
  if user.role ≠ .serverAdmin then Thread.fail ⟨.forbidden, "Admin access required"⟩ else pure user

def storeScopedUser (authorization : Option Text) : AuthT (AccountInfo × Option (List Text)) := do
  let validated ← validateSessionWithScope app authorization true
  pure (validated.user, validated.keyScope)

def authenticatedCaller (authorization : Option Text) : AuthT Validated :=
  validateSessionWithScope app authorization true

/-! ### Extractors only read -/

theorem lookUp_readOnly (read : Registry → α) (message : String) : (lookUp read message).ReadOnly := by
  refine Thread.ReadOnly.bind (Thread.ReadOnly.attempt (.statement ?_)) ?_
  · rintro now registry found registry' ⟨⟩
    rfl
  · intro answer
    cases answer with
    | ok found => exact .pure found
    | error e => exact .fail _

theorem validateApiKey_readOnly (rawKey : Text) (narrowRole : Bool) :
    (validateApiKey app rawKey narrowRole).ReadOnly := by
  refine (lookUp_readOnly _ _).bind ?_
  rintro ⟨found, now⟩
  cases found with
  | none => exact .fail _
  | some key =>
    dsimp only
    split
    · exact .fail _
    split
    · exact .fail _
    split
    · exact .fail _
    refine (lookUp_readOnly _ _).bind ?_
    rintro ⟨row, later⟩
    cases row with
    | none => exact .fail _
    | some row => exact .pure _

theorem validateSessionId_readOnly : (validateSessionId app sessionId).ReadOnly := by
  refine Thread.ReadOnly.bind (Thread.ReadOnly.attempt (.statement ?_)) ?_
  · rintro now registry found registry' ⟨⟩
    rfl
  rintro (error | found)
  · exact .fail _
  · cases found with
    | none => exact .fail _
    | some pair => exact .pure pair

theorem validateSessionWithScope_readOnly (authorization : Option Text) (narrowRole : Bool) :
    (validateSessionWithScope app authorization narrowRole).ReadOnly := by
  unfold validateSessionWithScope
  split
  · exact .fail _
  split
  · exact validateApiKey_readOnly app _ _
  · split
    · exact .fail _
    · exact (validateSessionId_readOnly app _).bind fun _ => .pure _

theorem validateSession_readOnly (authorization : Option Text) : (validateSession app authorization).ReadOnly := by
  refine (validateSessionWithScope_readOnly app _ _).bind fun validated => ?_
  split
  · exact .fail _
  · exact .pure _

theorem authenticatedUser_readOnly (authorization : Option Text) :
    (authenticatedUser app authorization).ReadOnly :=
  validateSession_readOnly app authorization

theorem freshlyAuthenticatedUser_readOnly (authorization : Option Text) :
    (freshlyAuthenticatedUser app authorization).ReadOnly := by
  unfold freshlyAuthenticatedUser
  split
  · exact .fail _
  split
  · exact .fail _
  split
  · exact .fail _
  refine (validateSessionId_readOnly app _).bind ?_
  rintro ⟨user, session⟩
  refine Thread.ReadOnly.bind (.statement ?_) fun now => ?_
  · rintro now registry found registry' ⟨⟩
    rfl
  · split
    · exact .fail _
    · exact .pure _

theorem adminAuth_readOnly (authorization : Option Text) : (adminAuth app authorization).ReadOnly := by
  refine (validateSession_readOnly app _).bind fun user => ?_
  split
  · exact .fail _
  · exact .pure _

theorem lookUp_meets {contract : Thread.Contract Time Rejection Registry}
    (kept : ∀ registry, contract.guarantee registry registry) (read : Registry → α) (message : String)
    (registry : Registry) :
    (lookUp read message).Meets contract
      (fun found later => found.1 = read later ∧ contract.rely registry later ∧ contract.invariant later)
      (fun _ _ => True) registry := by
  unfold lookUp
  rw [Thread.meets_bind, Thread.meets_attempt]
  refine Thread.Meets.statement ?_ ?_ fun later _ _ _ => ⟨kept later, trivial⟩
  · rintro later now found after relied holds - - ⟨⟩
    exact ⟨kept later, rfl, relied, holds⟩
  · rintro later now e found after - - - - ⟨⟩
    exact ⟨kept later, trivial⟩

/-! ## What a validated key says -/

section Keys

variable {app} {registry registry' : Registry}

@[simp] theorem ask_lookUp (read : Registry → α) (message : String) (now : Time) (registry : Registry) :
    (lookUp read message).ask now registry = .ok (read registry, now) := rfl

theorem lookUp_yields {read : Registry → α} {message : String} {found : α × Time}
    (ends : (lookUp read message).Yields registry found registry') :
    found.1 = read registry ∧ registry' = registry := by
  obtain ⟨answer, between, tried, rest⟩ := ends.of_bind
  cases answer with
  | error e => exact rest.of_fail.elim
  | ok pair =>
    obtain ⟨now, done⟩ := tried.of_attempt_statement
    cases done
    obtain ⟨rfl, rfl⟩ := rest.of_pure
    exact ⟨rfl, rfl⟩

structure KeyPassed (key : ApiKey) (narrowRole : Bool) (registry : Registry) (validated : Validated) :
    Prop where
  active : key.isActive = true
  owner : validated.user.id = key.userId
  scope : validated.keyScope = key.permissions
  role : ∃ row, registry.getUser key.userId = some row ∧
    validated.user.role = narrowedRole narrowRole key.permissions row.role

theorem id_of_getUser {id : Uuid} {row : UserRow} (found : registry.getUser id = some row) : row.id = id := by
  obtain ⟨user, isUser, rfl⟩ := Option.map_eq_some_iff.mp found
  exact (Table.find?_eq_some.mp isUser).2

theorem validateApiKey_yields {rawKey : Text} {narrowRole : Bool} {validated : Validated}
    (ends : (validateApiKey app rawKey narrowRole).Yields registry validated registry') :
    registry' = registry ∧ ∃ key, registry.getApiKeyAuthInfo (app.hashApiKey rawKey) = some key ∧
      KeyPassed key narrowRole registry validated := by
  obtain ⟨⟨found, now⟩, between, looked, rest⟩ := ends.of_bind
  obtain ⟨isFound, rfl⟩ := lookUp_yields looked
  dsimp only at isFound
  cases found with
  | none => exact rest.of_fail.elim
  | some key =>
    dsimp only at rest
    split at rest
    · exact rest.of_fail.elim
    next active =>
      split at rest
      · exact rest.of_fail.elim
      split at rest
      · exact rest.of_fail.elim
      obtain ⟨⟨owner, later⟩, between', resolved, last⟩ := rest.of_bind
      obtain ⟨isOwner, rfl⟩ := lookUp_yields resolved
      dsimp only at isOwner
      cases owner with
      | none => exact last.of_fail.elim
      | some row =>
        obtain ⟨rfl, rfl⟩ := last.of_pure
        refine ⟨rfl, key, isFound.symm, by simpa using active, ?_, rfl, row, isOwner.symm, rfl⟩
        exact id_of_getUser isOwner.symm

/-- A bearer token that starts with `ak_` is validated as a key. -/
theorem validateSessionWithScope_of_key {authorization : Option Text} {token : Text} {narrowRole : Bool}
    (bears : extractBearerToken authorization = .ok token) (isKey : isApiKeyToken token = true) :
    validateSessionWithScope app authorization narrowRole = validateApiKey app token narrowRole := by
  unfold validateSessionWithScope
  rw [bears]
  simp only [isKey, if_true]

/-- A scoped key never runs as an administrator. -/
theorem narrowedRole_of_scoped {permissions : Option (List Text)}
    (isScoped : keyRetainsUnrestrictedAccess permissions = false) (role : Role) :
    narrowedRole true permissions role = .user := by
  cases role <;> simp [narrowedRole, isScoped]

/-- The extractors without a scope refuse a scoped key, whatever the database answers. -/
theorem validateSession_refuses {authorization : Option Text} {token : Text} {key : ApiKey}
    (bears : extractBearerToken authorization = .ok token) (isKey : isApiKeyToken token = true)
    (found : registry.getApiKeyAuthInfo (app.hashApiKey token) = some key)
    (isScoped : keyRetainsUnrestrictedAccess key.permissions = false) {user : AccountInfo} :
    ¬ (validateSession app authorization).Yields registry user registry' := by
  intro ends
  obtain ⟨validated, between, first, rest⟩ := ends.of_bind
  rw [validateSessionWithScope_of_key bears isKey] at first
  obtain ⟨rfl, other, isOther, passed⟩ := validateApiKey_yields first
  rw [found] at isOther
  cases isOther
  rw [passed.scope, isScoped] at rest
  exact rest.of_fail

end Keys

/-! ## A server with one key, and one with one session -/

def viewerScope : List Text := ["ethpay.store.canviewinvoices:00000000000000000000000000000007".toList]

def viewerKey : ApiKey where
  id := 3
  userId := 1
  keyHash := "ak_viewer".toList
  isActive := true
  deprecatedAt := none
  expiresAt := none
  rateLimitRpm := none
  isOperator := false
  permissions := some viewerScope

def viewerRegistry : Registry :=
  { Registry.empty with
    ledger := { Ledger.empty with users := ⟨[⟨1, true⟩], by decide⟩, userStores := [⟨1, 7⟩, ⟨1, 8⟩] }
    apiKeys := ⟨[viewerKey], by decide⟩
    keyOwner := by decide
    sessionOwner := by simp [Registry.empty] }

/-- A server that keeps its keys in the clear. -/
def plainApp : AppState := ⟨id, 0, fun _ _ _ => false, fun _ => none⟩

def clerkApp : AppState where
  hashApiKey := id
  deprecationGraceSecs := 0
  accepts session _ now := now < session.expiresAt
  parseRole text := if text = "server_admin".toList then some .serverAdmin else some .user

def clerkToken : Text := "00000000000000000000000000000001".toList

def clerkRegistry : Registry :=
  { Registry.empty with
    ledger := { Ledger.empty with users := .single ⟨1, false⟩, userStores := [⟨1, 7⟩] }
    sessions := ⟨[⟨1, 1, 0, 100, 0⟩], by decide⟩
    keyOwner := by simp [Registry.empty]
    sessionOwner := by decide }

end EthPayServer.Api
