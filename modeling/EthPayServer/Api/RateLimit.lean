import EthPayServer.Api.Extractors

/-!
# The limiter of an API key

The middleware of `api/api_key_rate_limit.rs` in front of every handler.  It
reads the key from the `X-API-Key` header, while the handlers authenticate the
bearer token of the `Authorization` header, and it lets a request pass that it
cannot look up.
-/

namespace EthPayServer.Api.RateLimit

open Lib Data
open Idempotency (toStr)
open Evm (Time Uuid)

/-- A limiter: a cell, full when it is made, from which a check takes one unit or learns how long to wait. -/
structure Governor where
  Cell : Type
  perMinute : Nat → Cell
  check : Cell → Time → Except Nat Cell

/-- What happened to one request on its way to the handler. -/
inductive Note where
  /-- the look-up of the header was answered with an active key -/
  | found (key : ApiKey)
  /-- one unit was taken from the limiter of the key -/
  | consumed (keyId : Uuid)
  /-- the limiter of the key had no unit left -/
  | refused (keyId : Uuid)
deriving DecidableEq

variable (governor : Governor)

/-- The tables, the limiters by key with the rate they were made for, and the notes of all requests. -/
structure Front where
  registry : Registry
  limiters : Uuid → Option (Nat × governor.Cell)
  journal : List (Nat × Note)

structure ApiRequest where
  xApiKey : Option Text
  authorization : Option Text
deriving DecidableEq

structure FrontRejection where
  rejection : Rejection
  retryAfter : Option Nat
deriving DecidableEq

variable {governor} in
def Front.note (front : Front governor) (index : Nat) (note : Note) : Front governor :=
  { front with journal := front.journal ++ [(index, note)] }

variable {governor} in
def Front.setLimiter (front : Front governor) (id : Uuid) (limiter : Nat × governor.Cell) : Front governor :=
  { front with limiters := Function.update front.limiters id (some limiter) }

abbrev FrontT : Type → Type := Thread Time FrontRejection (Front governor)

/-! ## The middleware -/

/-- `get_api_key_rate_limit_by_hash`: active keys only. -/
def getApiKeyRateLimitByHash (keyHash : Text) (registry : Registry) : Option ApiKey :=
  (registry.getApiKeyAuthInfo keyHash).filter ApiKey.isActive

def effectiveRpm (defaultRpm : Nat) (rateLimitRpm : Option Int) : Nat :=
  match rateLimitRpm with
  | some rpm => if 0 < rpm then rpm.toNat else defaultRpm
  | none => defaultRpm

def makeDirectLimiter (rpm : Nat) : governor.Cell := governor.perMinute (max rpm 1)

def tooManyRequests (wait : Nat) : FrontRejection :=
  ⟨⟨.tooManyRequests, "Too many requests"⟩, some (wait + 1)⟩

/-- Check the limiter that stands under the key. -/
def spend (index : Nat) (id : Uuid) (limiter : Nat × governor.Cell) (now : Time) (front : Front governor) :
    Except Nat Unit × Front governor :=
  match governor.check limiter.2 now with
  | .ok cell => (.ok (), (front.setLimiter id (limiter.1, cell)).note index (.consumed id))
  | .error wait => (.error wait, (front.setLimiter id limiter).note index (.refused id))

/-- The entry of the key, made if there is none; its limiter is checked unless the rate has changed. -/
def checkEntry (index : Nat) (id : Uuid) (rpm : Nat) : FrontT governor (Option (Except Nat Unit)) :=
  Thread.statement fun now front =>
    let limiter := (front.limiters id).getD (rpm, makeDirectLimiter governor rpm)
    if limiter.1 ≠ rpm then .ok (none, front)
    else
      let (checked, front') := spend governor index id limiter now front
      .ok (some checked, front')

def insertLimiter (id : Uuid) (rpm : Nat) : FrontT governor Unit :=
  Thread.statement fun _ front => .ok ((), front.setLimiter id (rpm, makeDirectLimiter governor rpm))

/-- Without an entry the request is not limited. -/
def checkInserted (index : Nat) (id : Uuid) : FrontT governor (Except Nat Unit) :=
  Thread.statement fun now front =>
    match front.limiters id with
    | none => .ok (.ok (), front)
    | some limiter => .ok (spend governor index id limiter now front)

def checkLimiter (index : Nat) (id : Uuid) (rpm : Nat) : FrontT governor (Except Nat Unit) := do
  match ← checkEntry governor index id rpm with
  | some checked => pure checked
  | none => do
    insertLimiter governor id rpm
    checkInserted governor index id

variable (app : AppState)

def lookUpKey (index : Nat) (rawKey : Text) : FrontT governor (Option ApiKey) :=
  Thread.statement fun _ front =>
    match getApiKeyRateLimitByHash (app.hashApiKey rawKey) front.registry with
    | none => .ok (none, front)
    | some key => .ok (some key, front.note index (.found key))

/-- Lets the request pass or ends it; a key that is not found is left to the handler. -/
def middleware (defaultRpm : Nat) (request : ApiRequest) (index : Nat) : FrontT governor Unit :=
  match request.xApiKey.bind toStr with
  | none => pure ()
  | some rawKey =>
    if rawKey = [] then pure ()
    else do
      match ← (lookUpKey governor app index rawKey).attempt with
      | .error _ => pure ()
      | .ok none => pure ()
      | .ok (some key) => do
        match ← checkLimiter governor index key.id (effectiveRpm defaultRpm key.rateLimitRpm) with
        | .ok () => pure ()
        | .error wait => Thread.fail (tooManyRequests wait)

def registryView : Thread.View Registry Rejection (Front governor) FrontRejection where
  part := Front.registry
  replace registry front := { front with registry := registry }
  fault := FrontRejection.rejection
  report rejection := ⟨rejection, none⟩

/-- A request on its way to the handler; the handler begins when the request is authenticated. -/
def serve (defaultRpm : Nat) (request : ApiRequest) (narrowRole : Bool) (index : Nat) :
    FrontT governor Validated := do
  middleware governor app defaultRpm request index
  (validateSessionWithScope app request.authorization narrowRole).embed (registryView governor)

/-- A request to the server, or any change to its tables. -/
inductive Arrival where
  | http (request : ApiRequest) (narrowRole : Bool)
  | change (write : Registry → Registry)

/-- The server: the requests and the changes come in any order; a read that fails is not answered at all. -/
def frontDesk (defaultRpm : Nat) :
    Service Arrival Time FrontRejection (Front governor) (Option Validated) where
  initial front := front.limiters = (fun _ => none) ∧ front.journal = []
  legal _ answer := ∀ observed e, answer ≠ .lost observed e
  body arrival index :=
    match arrival with
    | .http request narrowRole => do
      let validated ← serve governor app defaultRpm request narrowRole index
      pure (some validated)
    | .change write => do
      Thread.statement fun _ front => .ok ((), { front with registry := write front.registry })
      pure none

/-! ## What is noted -/

section Noted

variable {governor} {app} (front : Front governor) (id : Uuid)

def Front.notes (front : Front governor) (index : Nat) : List Note :=
  (front.journal.filter fun entry => entry.1 = index).map Prod.snd

@[simp] theorem notes_note_self (index : Nat) (note : Note) :
    (front.note index note).notes index = front.notes index ++ [note] := by
  simp [Front.notes, Front.note]

theorem notes_note_of_ne {index other : Nat} (apart : other ≠ index) (note : Note) :
    (front.note index note).notes other = front.notes other := by
  simp [Front.notes, Front.note, Ne.symm apart]

@[simp] theorem notes_setLimiter (limiter : Nat × governor.Cell) (index : Nat) :
    (front.setLimiter id limiter).notes index = front.notes index := rfl

/-- No limiter is taken away. -/
def LimitersStay (front front' : Front governor) : Prop :=
  ∀ id, (front.limiters id).isSome = true → (front'.limiters id).isSome = true

theorem LimitersStay.refl : LimitersStay front front := fun _ => id

theorem LimitersStay.trans {front front' front'' : Front governor} (first : LimitersStay front front')
    (second : LimitersStay front' front'') : LimitersStay front front'' :=
  fun id present => second id (first id present)

theorem LimitersStay.setLimiter (limiter : Nat × governor.Cell) :
    LimitersStay front (front.setLimiter id limiter) := by
  intro other present
  by_cases same : other = id
  · subst same
    simp [Front.setLimiter]
  · simpa [Front.setLimiter, Function.update_of_ne same] using present

/-- What the calls of one request do: they take no limiter and no note away, and note for themselves only. -/
structure Adds (index : Nat) (front front' : Front governor) : Prop where
  limiters : LimitersStay front front'
  journal : front.journal ⊆ front'.journal
  others : ∀ other, other ≠ index → front'.notes other = front.notes other

theorem Adds.refl (index : Nat) : Adds index front front := ⟨.refl front, List.Subset.refl _, fun _ _ => rfl⟩

theorem Adds.note (index : Nat) (note : Note) : Adds index front (front.note index note) :=
  ⟨.refl front, List.subset_append_left _ _, fun _ apart => notes_note_of_ne front apart note⟩

theorem Adds.setLimiter (index : Nat) (limiter : Nat × governor.Cell) :
    Adds index front (front.setLimiter id limiter) :=
  ⟨.setLimiter front id limiter, List.Subset.refl _, fun _ _ => rfl⟩

theorem Adds.trans {front front' front'' : Front governor} (first : Adds index front front')
    (second : Adds index front' front'') : Adds index front front'' where
  limiters := first.limiters.trans second.limiters
  journal := List.Subset.trans first.journal second.journal
  others other apart := (second.others other apart).trans (first.others other apart)

structure Counted (app : AppState) (token : Text) (notes : List Note) : Prop where
  taken : ∀ key, .found key ∈ notes → key.keyHash = app.hashApiKey token ∧ .consumed key.id ∈ notes
  allowed : ∀ id, .refused id ∉ notes

theorem Counted.nil (app : AppState) (token : Text) : Counted app token [] :=
  ⟨fun _ noted => (List.not_mem_nil noted).elim, fun _ noted => (List.not_mem_nil noted).elim⟩

theorem Counted.pair {app : AppState} {token : Text} {key : ApiKey} (isKey : key.keyHash = app.hashApiKey token) :
    Counted app token [.found key, .consumed key.id] := by
  constructor
  · intro other noted
    have same : other = key := by simpa using noted
    subst same
    exact ⟨isKey, by simp⟩
  · intro id noted
    simp at noted

structure ShowsKey (request : ApiRequest) (token : Text) : Prop where
  bearer : extractBearerToken request.authorization = .ok token
  isKey : isApiKeyToken token = true
  header : request.xApiKey = some token

variable (app) in
/-- The contracts of the front desk: nobody touches the notes of another. -/
def frontSpec (defaultRpm : Nat) : Service.Spec (frontDesk governor app defaultRpm) where
  invariant _ := True
  rely index front front' := LimitersStay front front' ∧ front'.notes index = front.notes index
  guarantee _ index := Adds index
  fresh index front := front.notes index = []
  post arrival index result front :=
    match arrival, result with
    | .http request _, some _ => ∀ token, ShowsKey request token → Counted app token (front.notes index)
    | _, _ => True
  failure _ _ _ _ := True
  assumes := False

variable {defaultRpm : Nat} {arrival : Arrival} {index : Nat} {front : Front governor}

/-- One call of a request: it finds the notes as it left them, and leaves those of the others. -/
theorem meets_call {α : Type} {f : Time → Front governor → Except FrontRejection (α × Front governor)}
    {Q : α → Front governor → Prop} {E : FrontRejection → Front governor → Prop}
    (onOk : ∀ {between now a last}, LimitersStay front between →
      between.notes index = front.notes index → f now between = .ok (a, last) →
      Adds index between last ∧ Q a last)
    (onError : ∀ {between e}, between.notes index = front.notes index → E e between) :
    (Thread.statement f).Meets ((frontSpec app defaultRpm).contract arrival index) Q E front := by
  change (Thread.assuming (fun _ => True) (Thread.statement f)).Meets _ Q E front
  refine Thread.Meets.statement ?_ ?_ ?_
  · rintro between now a last ⟨stay, same⟩ - - - ends
    exact onOk stay same ends
  · rintro between now e a last - - - legal -
    exact absurd rfl (legal now e)
  · rintro between e ⟨-, same⟩ -
    exact ⟨.refl _ _, onError same⟩

theorem spend_notes {checked : Except Nat Unit} {last : Front governor} {id : Uuid}
    {limiter : Nat × governor.Cell} {now : Time}
    (spent : spend governor index id limiter now front = (checked, last)) :
    Adds index front last ∧ (checked = .ok () → last.notes index = front.notes index ++ [.consumed id]) := by
  unfold spend at spent
  split at spent
  · cases spent
    refine ⟨(Adds.setLimiter front id index _).trans (.note _ index _), fun _ => ?_⟩
    rw [notes_note_self, notes_setLimiter]
  · cases spent
    exact ⟨(Adds.setLimiter front id index _).trans (.note _ index _), fun refused => nomatch refused⟩

/-- The limiter lets a request pass only with a unit taken. -/
theorem checkLimiter_meets (rpm : Nat) :
    (checkLimiter governor index id rpm).Meets ((frontSpec app defaultRpm).contract arrival index)
      (fun checked last => checked = .ok () → last.notes index = front.notes index ++ [.consumed id])
      (fun _ _ => True) front := by
  unfold checkLimiter
  rw [Thread.meets_bind]
  refine meets_call ?_ fun _ => trivial
  intro between now checked last _ same ends
  dsimp only at ends
  split at ends
  · -- the rate has changed: a new limiter takes the place of the old one
    cases ends
    refine ⟨.refl _ _, ?_⟩
    rw [Thread.meets_bind]
    refine meets_call ?_ fun _ => trivial
    rintro between' now' ⟨⟩ inserted - isSame ⟨⟩
    refine ⟨.setLimiter _ _ _ _, ?_⟩
    refine meets_call ?_ fun _ => trivial
    intro later now'' checked last stay stillSame spent
    have present : (later.limiters id).isSome = true := stay id (by simp [Front.setLimiter])
    obtain ⟨limiter, isLimiter⟩ := Option.isSome_iff_exists.mp present
    rw [isLimiter] at spent
    obtain ⟨kept, taken⟩ := spend_notes (Except.ok.inj spent)
    refine ⟨kept, fun passed => ?_⟩
    rw [taken passed, stillSame, notes_setLimiter, isSame, same]
  · cases ends
    obtain ⟨kept, taken⟩ := spend_notes (Prod.mk.eta).symm
    refine ⟨kept, fun passed => ?_⟩
    rw [taken passed, same]

theorem lookUpKey_meets (rawKey : Text) (fresh : front.notes index = []) :
    (lookUpKey governor app index rawKey).Meets ((frontSpec app defaultRpm).contract arrival index)
      (fun found last =>
        match found with
        | none => last.notes index = []
        | some key => last.notes index = [.found key] ∧ key.keyHash = app.hashApiKey rawKey)
      (fun _ last => last.notes index = []) front := by
  refine meets_call ?_ fun same => same.trans fresh
  intro between now found last _ same ends
  split at ends
  · cases ends
    exact ⟨.refl _ _, same.trans fresh⟩
  next key isKey =>
    cases ends
    refine ⟨.note _ _ _, ?_, ?_⟩
    · rw [notes_note_self, same, fresh]
      rfl
    · obtain ⟨found, -⟩ := Option.filter_eq_some_iff.mp isKey
      simpa using List.find?_some found

/-- A request that the middleware lets pass is counted, if it was looked up. -/
theorem middleware_meets (request : ApiRequest) (fresh : front.notes index = []) :
    (middleware governor app defaultRpm request index).Meets ((frontSpec app defaultRpm).contract arrival index)
      (fun _ last => ∀ token, ShowsKey request token → Counted app token (last.notes index)) (fun _ _ => True)
      front := by
  have nothing {last : Front governor} (none : last.notes index = []) (token : Text) :
      Counted app token (last.notes index) := by
    rw [none]
    exact .nil app token
  unfold middleware
  split
  · exact fun token _ => nothing fresh token
  next rawKey isRaw =>
    split
    · exact fun token _ => nothing fresh token
    rw [Thread.meets_bind, Thread.meets_attempt]
    refine (lookUpKey_meets rawKey fresh).mono ?_ fun _ _ none token _ => nothing none token
    intro found between looked
    cases found with
    | none => exact fun token _ => nothing looked token
    | some key =>
      obtain ⟨noted, isHash⟩ := looked
      refine (checkLimiter_meets key.id _).bind ?_
      intro checked last taken
      cases checked with
      | error wait => trivial
      | ok passed =>
        intro token shows
        have sameToken : rawKey = token := by
          rw [shows.header, Option.bind_some] at isRaw
          unfold toStr at isRaw
          split at isRaw
          · exact (Option.some.inj isRaw).symm
          · cases isRaw
        subst sameToken
        rw [taken rfl, noted]
        exact .pair isHash

theorem frontSpec_sound :
    (frontSpec app defaultRpm : Service.Spec (frontDesk governor app defaultRpm)).Sound where
  initially := by
    rintro front ⟨-, none⟩
    refine ⟨trivial, fun index => ?_⟩
    change (front.journal.filter _).map _ = []
    rw [none]
    rfl
  refl _ front := ⟨.refl front, rfl⟩
  trans first second := ⟨first.1.trans second.1, second.2.trans first.2⟩
  keeps _ _ := trivial
  compatible apart _ kept := ⟨kept.limiters, kept.others _ (Ne.symm apart)⟩
  freshKept before kept none := (kept.others _ (Nat.ne_of_gt before)).trans none
  postStable := by
    rintro arrival index result front front' ⟨-, same⟩ counted
    cases arrival with
    | change write => trivial
    | http request narrowRole =>
      cases result with
      | none => trivial
      | some validated =>
        intro token shows
        rw [same]
        exact counted token shows
  failureStable _ _ := trivial
  meets := by
    intro arrival index front _ fresh
    cases arrival with
    | change write =>
      change (Thread.statement _ >>= fun _ => pure none).Meets _ _ _ front
      rw [Thread.meets_bind]
      refine meets_call ?_ fun _ => trivial
      rintro between now ⟨⟩ last - - ⟨⟩
      exact ⟨⟨.refl between, List.Subset.refl _, fun _ _ => rfl⟩, trivial⟩
    | http request narrowRole =>
      change (serve governor app defaultRpm request narrowRole index >>= _).Meets _ _ _ front
      rw [Thread.meets_bind]
      unfold serve
      refine (middleware_meets request fresh).bind ?_
      intro passed between counted
      -- the handler's own reads leave the notes alone
      have reads : ((validateSessionWithScope app request.authorization narrowRole).embed
          (registryView governor)).ReadOnly :=
        (validateSessionWithScope_readOnly app _ _).embed fun _ => rfl
      refine (reads.keeps (fun front _ => Adds.refl front index) ?_ counted).mono (fun _ _ counted => counted)
        fun _ _ _ => trivial
      rintro earlier later counted ⟨-, same⟩ token shows
      rw [same]
      exact counted token shows

/-- A bearer token is text, so the middleware reads it from its header. -/
theorem toStr_of_bearer {authorization : Option Text} {token : Text}
    (bears : extractBearerToken authorization = .ok token) : toStr token = some token := by
  unfold extractBearerToken toStr at bears
  split at bears
  · cases bears
  split at bears
  · cases bears
  next header text isText =>
  split at isText
  next visible =>
    cases isText
    split at bears
    · cases bears
    next dropped =>
      cases bears
      obtain ⟨start, rfl, -⟩ := List.dropPrefix?_eq_some_iff.mp dropped
      rw [List.all_append, Bool.and_eq_true] at visible
      exact if_pos visible.2
  · cases isText

/-- The first call of a request that shows its key is the look-up. -/
theorem resume_found {request : ApiRequest} {narrowRole : Bool} {token : Text} (shows : ShowsKey request token)
    {key : ApiKey} (active : getApiKeyRateLimitByHash (app.hashApiKey token) front.registry = some key)
    (now : Time) :
    ((⟨.http request narrowRole, (frontDesk governor app defaultRpm).body (.http request narrowRole) index⟩ :
      Running Arrival Time FrontRejection (Front governor) (Option Validated)).resume (.ok now) front).1 =
      front.note index (.found key) := by
  have isRaw : request.xApiKey.bind toStr = some token := by
    rw [shows.header, Option.bind_some, toStr_of_bearer shows.bearer]
  have nonempty : token ≠ [] := by
    rintro rfl
    exact absurd shows.isKey (by decide)
  simp only [frontDesk, serve, middleware, isRaw, if_neg nonempty]
  simp only [Running.resume, Thread.bind_eq, lookUpKey, Thread.statement, Thread.attempt, Thread.andThen,
    Answer.effect, Answer.observed?, active]

end Noted

/--
In every run of the server, a request that shows the key in both headers, whose
look-up is answered while the key is active, and that the handler authenticates
has had a unit taken from the limiter of that key before the handler begins; a
request for which none was left does not come so far.
-/
theorem requests_counted {defaultRpm : Nat}
    {before after : Pool Arrival Time FrontRejection (Front governor) (Option Validated)}
    (reached : (frontDesk governor app defaultRpm).system.Reachable before) {index : Nat} {request : ApiRequest}
    {narrowRole : Bool} (arrived : before.running[index]? =
      some ⟨.http request narrowRole, (frontDesk governor app defaultRpm).body (.http request narrowRole) index⟩)
    {token : Text} (shows : ShowsKey request token) {key : ApiKey}
    (active : getApiKeyRateLimitByHash (app.hashApiKey token) before.shared.registry = some key) {now : Time}
    (run : (frontDesk governor app defaultRpm).system.Run
      (before.perform (frontDesk governor app defaultRpm).body (.run index (.ok now))) after)
    {validated : Validated}
    (served : after.running[index]? = some ⟨.http request narrowRole, .done (.ok (some validated))⟩) :
    key.keyHash = app.hashApiKey token ∧ .consumed key.id ∈ after.shared.notes index ∧
      ∀ id, .refused id ∉ after.shared.notes index := by
  have looksUp : (frontDesk governor app defaultRpm).system.step before (.run index (.ok now)) _ :=
    ⟨fun _ _ => nofun, rfl⟩
  obtain ⟨holds, kept⟩ := (frontSpec_sound.always id (reached.snoc looksUp)).run frontSpec_sound
    (R := fun front front' => front.journal ⊆ front'.journal) (fun _ => List.Subset.refl _) List.Subset.trans
    Adds.journal run fun step => ⟨step, nofun⟩
  have counted : ∀ token, ShowsKey request token → Counted app token (after.shared.notes index) :=
    holds.meets index _ served
  obtain ⟨taken, allowed⟩ := counted token shows
  have found : Note.found key ∈ after.shared.notes index := by
    refine List.mem_map.mpr ⟨(index, .found key), List.mem_filter.mpr ⟨kept ?_, by simp⟩, rfl⟩
    simp only [Pool.perform, arrived, resume_found shows active]
    exact List.mem_append_right _ List.mem_cons_self
  obtain ⟨isKey, consumed⟩ := taken key found
  exact ⟨isKey, consumed, allowed⟩

/-! ## Requests that pass uncounted -/

def plainGovernor : Governor where
  Cell := Nat
  perMinute rpm := rpm
  check units _ := if units = 0 then .error 60 else .ok (units - 1)

abbrev FrontAction : Type := PoolAction Arrival Time FrontRejection

def answered (index : Nat) : FrontAction := .run index (.ok 0)

def bearerOnly : ApiRequest := ⟨none, some "Bearer ak_viewer".toList⟩

def bothHeaders : ApiRequest := ⟨some "ak_viewer".toList, some "Bearer ak_viewer".toList⟩

theorem bothHeaders_showsKey : ShowsKey bothHeaders "ak_viewer".toList :=
  ⟨by decide +kernel, by decide +kernel, rfl⟩

/-- The server with the viewer's key in its tables, before any request. -/
def viewerFront (registry : Registry) : Front plainGovernor := ⟨registry, fun _ => none, []⟩

abbrev viewerDesk : Service Arrival Time FrontRejection (Front plainGovernor) (Option Validated) :=
  frontDesk plainGovernor plainApp 300

/-- The action is one the world may take: no answer is lost. -/
def isTold : FrontAction → Bool
  | .run _ (.lost _ _) => false
  | _ => true

theorem viewerDesk_reachable (registry : Registry) {actions : List FrontAction}
    (told : ∀ action ∈ actions, isTold action = true) :
    viewerDesk.system.Reachable (viewerDesk.after (viewerFront registry) actions) := by
  have begins : viewerDesk.system.Reachable ⟨viewerFront registry, []⟩ := .of_initial ⟨⟨rfl, rfl⟩, rfl⟩
  refine begins.foldl ?_
  intro action mem pool
  refine ⟨?_, rfl⟩
  cases action with
  | start arrival => trivial
  | run index answer =>
    rintro observed e rfl
    exact absurd (told _ mem) Bool.false_ne_true

/-- After the actions the first request is authenticated as a key, with nothing taken for it. -/
def PassesUncounted (request : ApiRequest) (registry : Registry) (actions : List FrontAction) : Prop :=
  viewerDesk.system.Reachable (viewerDesk.after (viewerFront registry) actions) ∧
    (∃ validated, (viewerDesk.after (viewerFront registry) actions).running[0]? =
      some ⟨.http request true, .done (.ok (some validated))⟩) ∧
    (viewerDesk.after (viewerFront registry) actions).shared.notes 0 = []

theorem passesUncounted_of_run {request : ApiRequest} {registry : Registry} {actions : List FrontAction}
    (told : ∀ action ∈ actions, isTold action = true)
    (isRequest : ((viewerDesk.after (viewerFront registry) actions).running[0]?).map Running.request =
      some (.http request true))
    {v : Validated}
    (ended : (viewerDesk.after (viewerFront registry) actions).result 0 = some (.ok (some v)) ∧
      (viewerDesk.after (viewerFront registry) actions).shared.notes 0 = []) :
    PassesUncounted request registry actions := by
  obtain ⟨arrival, here⟩ := Pool.running_of_result ended.1
  rw [here] at isRequest
  cases isRequest
  exact ⟨viewerDesk_reachable registry told, ⟨v, here⟩, ended.2⟩

def viewer : Validated := ⟨⟨1, none, none, .user⟩, false, viewerKey.permissions⟩

def unissuedRegistry : Registry :=
  { viewerRegistry with
    apiKeys := Table.empty
    keyOwner := by simp }

/--
Three ways past the limiter with a good key: a request that shows it as a bearer
token only, one whose look-up fails, and one whose look-up comes before the key
is issued.
-/
theorem requests_pass_uncounted :
    PassesUncounted bearerOnly viewerRegistry [.start (.http bearerOnly true), answered 0, answered 0] ∧
      PassesUncounted bothHeaders viewerRegistry
        [.start (.http bothHeaders true), .run 0 (.failed ⟨⟨.internalServerError, ""⟩, none⟩), answered 0,
          answered 0] ∧
      PassesUncounted bothHeaders unissuedRegistry
        [.start (.http bothHeaders true), answered 0, .start (.change fun _ => viewerRegistry), answered 1,
          answered 0, answered 0] := by
  constructor
  · exact passesUncounted_of_run (v := viewer) (by decide) rfl (by decide +kernel)
  constructor
  · exact passesUncounted_of_run (v := viewer) (by decide) rfl (by decide +kernel)
  · exact passesUncounted_of_run (v := viewer) (by decide) rfl (by decide +kernel)

/-- A request with the key in both headers has come. -/
def arrivedPool : Pool Arrival Time FrontRejection (Front plainGovernor) (Option Validated) :=
  viewerDesk.after (viewerFront viewerRegistry) [.start (.http bothHeaders true)]

/-- The request is looked up, counted and authenticated. -/
def countedPool : Pool Arrival Time FrontRejection (Front plainGovernor) (Option Validated) :=
  [answered 0, answered 0, answered 0].foldl (Pool.perform viewerDesk.body)
    (arrivedPool.perform viewerDesk.body (answered 0))

theorem requests_counted_viewer :
    ShowsKey bothHeaders "ak_viewer".toList ∧ Note.consumed 3 ∈ countedPool.shared.notes 0 := by
  refine ⟨bothHeaders_showsKey, ?_⟩
  have ended : countedPool.result 0 = some (.ok (some viewer)) := by decide +kernel
  have isRequest : (countedPool.running[0]?).map Running.request = some (.http bothHeaders true) := rfl
  obtain ⟨arrival, here⟩ := Pool.running_of_result ended
  rw [here] at isRequest
  cases isRequest
  have active : getApiKeyRateLimitByHash (plainApp.hashApiKey "ak_viewer".toList) viewerRegistry =
      some viewerKey := by decide +kernel
  have reached : viewerDesk.system.Reachable arrivedPool := viewerDesk_reachable viewerRegistry (by decide)
  have run : viewerDesk.system.Run (arrivedPool.perform viewerDesk.body (answered 0)) countedPool :=
    Service.run_of_answered (by rintro _ _ isAnswer _ _ rfl; cases isAnswer) (by decide) _
  exact (requests_counted plainGovernor plainApp reached rfl bothHeaders_showsKey active run here).2.1

end EthPayServer.Api.RateLimit
