import EthPayServer.Data.Schema
import EthPayServer.Lib.Interleaving

/-!
# Idempotency keys

The middleware in front of the invoice endpoints.  It looks for a stored
response, takes a lock, runs the handler, stores a success and releases the
lock; each is a Redis command of its own.  The lookup is not repeated under the
lock, so a request whose lookup is old may run the handler a second time.
-/

namespace EthPayServer.Api.Idempotency

open Lib Data

abbrev Bytes : Type := List UInt8

def utf8 (text : String) : Bytes := text.toUTF8.toList

/-! ## Requests and responses -/

inductive Method where
  | get | post | put | delete | head | options | connect | patch | trace
  | extension (name : Text)
deriving DecidableEq

def Method.asStr : Method → Text
  | .get => "GET".toList
  | .post => "POST".toList
  | .put => "PUT".toList
  | .delete => "DELETE".toList
  | .head => "HEAD".toList
  | .options => "OPTIONS".toList
  | .connect => "CONNECT".toList
  | .patch => "PATCH".toList
  | .trace => "TRACE".toList
  | .extension name => name

/-- What the middleware reads of a request; a header value is its bytes as characters. -/
structure HttpRequest where
  method : Method
  path : Text
  idempotencyKey : Option Text
  authorization : Option Text
  body : Bytes

structure HttpResponse where
  status : Nat
  headers : List (Text × Text)
  body : Bytes
deriving DecidableEq

def HttpResponse.isSuccess (response : HttpResponse) : Bool :=
  200 ≤ response.status ∧ response.status < 300

/-- `HeaderValue::to_str`: visible characters and tabs only. -/
def toStr (value : Text) : Option Text :=
  if value.all fun c => (32 ≤ c.toNat ∧ c.toNat < 127) ∨ c = '\t' then some value else none

/-! ### Canned responses -/

def jsonError (status : Nat) (error : String) : HttpResponse where
  status := status
  headers := [("content-type".toList, "application/json".toList)]
  body := utf8 ("\x7b\"error\":\"" ++ error ++ "\"\x7d")

def conflictResponse : HttpResponse := jsonError 409 "idempotency_key_reuse"

def inFlightResponse : HttpResponse := jsonError 425 "idempotency_in_progress"

def invalidKeyResponse : HttpResponse := jsonError 400 "idempotency_key_invalid"

def payloadTooLarge : HttpResponse where
  status := 413
  headers := [("content-type".toList, "text/plain; charset=utf-8".toList)]
  body := utf8 "Request body too large"

def internalServerError : HttpResponse := ⟨500, [], []⟩

/-! ### Keys -/

def maxKeyLength : Nat := 255

def maxRequestBody : Nat := 1024 * 1024

def maxResponseBody : Nat := 1024 * 1024

def validateKey (value : Text) : Option Text :=
  (toStr value).bind fun key => if key = [] ∨ maxKeyLength < key.length then none else some key

def extractScope (request : HttpRequest) : Option Text := do
  let auth ← toStr (← request.authorization)
  let token ← auth.dropPrefix? "Bearer ".toList
  if token.length < 32 then none else some token

/-- The hash of method, path and body; `digest` is SHA-256 in hex. -/
def computeHash (digest : Bytes → Text) (request : HttpRequest) : Text :=
  digest (utf8 (String.ofList request.method.asStr) ++ utf8 ":" ++ utf8 (String.ofList request.path) ++
    utf8 ":" ++ request.body)

def cacheKey (scope key : Text) : Text := "idem".toList ++ ':' :: scope ++ ':' :: key

def lockKey (scope key : Text) : Text := "idem_lock".toList ++ ':' :: scope ++ ':' :: key

theorem cacheKey_ne_lockKey (scope key : Text) : cacheKey scope key ≠ lockKey scope key := by
  intro same
  -- the fifth characters differ
  have fifth : (cacheKey scope key)[4]? = (lockKey scope key)[4]? := by rw [same]
  have isColon : (cacheKey scope key)[4]? = some ':' := rfl
  have isLine : (lockKey scope key)[4]? = some '_' := rfl
  rw [isColon, isLine] at fifth
  exact absurd fifth (by decide)

/-! ### Stored responses -/

structure CachedResponse where
  requestHash : Text
  status : Nat
  body : Bytes
  headers : List (Text × Text)
deriving DecidableEq

/-- How entries are written to bytes and read back. -/
structure Serde (Wire : Type) where
  toVec : CachedResponse → Option Wire
  fromSlice : Wire → Option CachedResponse
  roundTrip : ∀ entry, (toVec entry).bind fromSlice = some entry

def nonReplayableHeaders : List Text :=
  ["date", "server", "connection", "transfer-encoding", "content-length", "keep-alive", "upgrade",
    "proxy-authenticate", "proxy-authorization", "te", "trailers", "idempotency-replayed"].map String.toList

def isReplayableHeader (name : Text) : Bool :=
  !nonReplayableHeaders.any fun denied => lower name = lower denied

def collectCacheableHeaders (headers : List (Text × Text)) : List (Text × Text) :=
  headers.filterMap fun (name, value) =>
    if isReplayableHeader name then (toStr value).map fun text => (name, text) else none

def buildReplayResponse (cached : CachedResponse) : HttpResponse where
  status := if 100 ≤ cached.status ∧ cached.status < 1000 then cached.status else 200
  headers := cached.headers ++ [("idempotency-replayed".toList, "true".toList)]
  body := cached.body

/-- The entry a success is stored as. -/
def cachedResponse (requestHash : Text) (response : HttpResponse) : CachedResponse where
  requestHash := requestHash
  status := response.status
  body := response.body
  headers := collectCacheableHeaders response.headers

/-! ## The middleware -/

section Middleware

variable {Wire : Type}

/-- A Redis string; of the lock it is kept in mind which request set it. -/
inductive Stored (Wire : Type) where
  | lock (owner : Nat)
  | json (wire : Wire)

/-- Redis, and the responses of the handler by the request that ran it. -/
structure Keyspace (Wire : Type) where
  value : Text → Option (Stored Wire)
  executions : List (Nat × HttpResponse)

/-- Write or remove one key. -/
def Keyspace.put (space : Keyspace Wire) (key : Text) (stored : Option (Stored Wire)) : Keyspace Wire :=
  { space with value := Function.update space.value key stored }

@[simp] theorem Keyspace.value_put_self (space : Keyspace Wire) (key : Text) (stored : Option (Stored Wire)) :
    (space.put key stored).value key = stored :=
  Function.update_self ..

theorem Keyspace.value_put_of_ne (space : Keyspace Wire) {key other : Text} (stored : Option (Stored Wire))
    (apart : other ≠ key) : (space.put key stored).value other = space.value other :=
  Function.update_of_ne apart ..

@[simp] theorem Keyspace.executions_put (space : Keyspace Wire) (key : Text)
    (stored : Option (Stored Wire)) : (space.put key stored).executions = space.executions := rfl

/-- An error of Redis; the middleware looks at nothing in it. -/
structure RedisError where

abbrev MiddlewareT (Wire : Type) : Type → Type := Thread HttpResponse RedisError (Keyspace Wire)

inductive CacheLookup where
  | replay (response : HttpResponse)
  | conflict
  | miss
  | error

/-- A stored string against the hash of the request; what does not parse counts as absent. -/
def classify (serde : Serde Wire) (requestHash : Text) : Option (Stored Wire) → CacheLookup
  | none => .miss
  | some (.lock _) => .miss
  | some (.json wire) =>
    match serde.fromSlice wire with
    | none => .miss
    | some entry =>
      if entry.requestHash = requestHash then .replay (buildReplayResponse entry) else .conflict

def cacheLookup (serde : Serde Wire) (cacheKey requestHash : Text) : MiddlewareT Wire CacheLookup := do
  match ← (Thread.query fun space => space.value cacheKey).attempt with
  | .error _ => pure .error
  | .ok stored => pure (classify serde requestHash stored)

/-- `SET NX`: sets the lock unless there is one; the command says whether it did. -/
def Keyspace.setNx (lockKey : Text) (owner : Nat) (space : Keyspace Wire) : Bool × Keyspace Wire :=
  match space.value lockKey with
  | some _ => (false, space)
  | none => (true, space.put lockKey (some (.lock owner)))

/-- An error of Redis does not block the request. -/
def acquireLock (relied : Keyspace Wire → Prop) (lockKey : Text) (owner : Nat) : MiddlewareT Wire Bool := do
  match ← (Thread.assuming relied
      (Thread.statement fun _ space => .ok (space.setNx lockKey owner))).attempt with
  | .ok acquired => pure acquired
  | .error _ => pure true

def releaseLock (lockKey : Text) : MiddlewareT Wire Unit := do
  let _ ← (Thread.statement fun _ space => .ok ((), space.put lockKey none)).attempt
  pure ()

/-- The handler behind the middleware; what it answers is up to the world. -/
def runNext (request : Nat) : MiddlewareT Wire HttpResponse :=
  Thread.statement fun response space =>
    .ok (response, { space with executions := space.executions ++ [(request, response)] })

/-- `SETEX`; an error is ignored. -/
def setEx (cacheKey : Text) (wire : Wire) : MiddlewareT Wire Unit := do
  let _ ← (Thread.statement fun _ space => .ok ((), space.put cacheKey (some (.json wire)))).attempt
  pure ()

def handleAndCache (serde : Serde Wire) (cacheKey lockKey requestHash : Text) (index : Nat) :
    MiddlewareT Wire HttpResponse := do
  let response ← runNext index
  if !response.isSuccess then do
    releaseLock lockKey
    pure response
  else if maxResponseBody < response.body.length then do
    releaseLock lockKey
    pure internalServerError
  else do
    match serde.toVec (cachedResponse requestHash response) with
    | some json => setEx cacheKey json
    | none => pure ()
    releaseLock lockKey
    pure response

/-- Whoever takes the lock finds no response that was stored since the lookup. -/
def LookupCurrent (cacheKey lockKey : Text) (space : Keyspace Wire) : Prop :=
  space.value lockKey = none → space.value cacheKey = none

/-- The middleware for the request that was received as number `index`. -/
def middleware (serde : Serde Wire) (digest : Bytes → Text) (request : HttpRequest) (index : Nat) :
    MiddlewareT Wire HttpResponse :=
  if request.method ≠ .post then runNext index
  else
    match request.idempotencyKey with
    | none => runNext index
    | some header =>
      match validateKey header with
      | none => pure invalidKeyResponse
      | some key =>
        match extractScope request with
        | none => runNext index
        | some scope =>
          if maxRequestBody < request.body.length then pure payloadTooLarge
          else do
            match ← cacheLookup serde (cacheKey scope key) (computeHash digest request) with
            | .replay response => pure response
            | .conflict => pure conflictResponse
            | .error => runNext index
            | .miss => do
              if ← acquireLock (LookupCurrent (cacheKey scope key) (lockKey scope key))
                  (lockKey scope key) index then
                handleAndCache serde (cacheKey scope key) (lockKey scope key) (computeHash digest request)
                  index
              else pure inFlightResponse

/-- Any number of copies of one request; Redis answers, and no key expires. -/
def idempotencyDesk (serde : Serde Wire) (digest : Bytes → Text) (request : HttpRequest) :
    Service Unit HttpResponse RedisError (Keyspace Wire) HttpResponse where
  initial space := (∀ scope key, space.value (cacheKey scope key) = none ∧
    space.value (lockKey scope key) = none) ∧ space.executions = []
  legal _ answer := ∃ response, answer = .ok response
  body _ index := middleware serde digest request index

end Middleware

end EthPayServer.Api.Idempotency
