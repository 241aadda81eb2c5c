import EthPayServer.Api.Idempotency

/-!
# At most one success

A success is stored or its request still holds the lock.  The lock is the only
thing that keeps others away, so what a request needs of them is that they leave
lock, entry and executions alone while it holds it.
-/

namespace EthPayServer.Api.Idempotency

open Lib Data

/-! ## What holds between two commands -/

/-- The execution returned a success that is stored. -/
def cacheable (execution : Nat × HttpResponse) : Bool :=
  execution.2.isSuccess ∧ execution.2.body.length ≤ maxResponseBody

section Once

variable {Wire : Type} {serde : Serde Wire} {hash cache lock : Text} {received : HttpRequest}

/-- The executions that returned a success that is stored. -/
def Keyspace.successes (space : Keyspace Wire) : List (Nat × HttpResponse) :=
  space.executions.filter cacheable

/-- What holds between any two commands: a success is stored, or the request that had it holds the lock. -/
structure Kept (serde : Serde Wire) (hash cache lock : Text) (space : Keyspace Wire) : Prop where
  locked : ∀ stored, space.value lock = some stored → ∃ owner, stored = .lock owner
  cached : ∀ stored, space.value cache = some stored → ∃ wire execution, stored = .json wire ∧
    space.successes = [execution] ∧ serde.fromSlice wire = some (cachedResponse hash execution.2)
  uncached : space.value cache = none → space.successes = [] ∨
    ∃ execution, space.value lock = some (.lock execution.1) ∧ space.successes = [execution]

/-- Executions are not forgotten and a stored response is not replaced. -/
structure Grows (cache : Text) (before after : Keyspace Wire) : Prop where
  executions : before.executions ⊆ after.executions
  cached : ∀ stored, before.value cache = some stored → after.value cache = some stored

/-- Nothing that matters to the holder of the lock has changed. -/
structure Undisturbed (cache lock : Text) (before after : Keyspace Wire) : Prop where
  locked : after.value lock = before.value lock
  cached : after.value cache = before.value cache
  executions : after.executions = before.executions

structure Acts (serde : Serde Wire) (hash cache lock : Text) (request : Nat) (before after : Keyspace Wire) :
    Prop where
  kept : Kept serde hash cache lock after
  grows : Grows cache before after
  spares : ∀ other, other ≠ request → before.value lock = some (.lock other) →
    Undisturbed cache lock before after

/-- What a request can count on between two of its commands. -/
structure Relies (cache lock : Text) (request : Nat) (before after : Keyspace Wire) : Prop where
  grows : Grows cache before after
  holds : before.value lock = some (.lock request) → Undisturbed cache lock before after

/-- How a request with the given hash may be answered, by what the handler has answered so far. -/
inductive Answered (hash : Text) (received : HttpRequest) (executions : List (Nat × HttpResponse))
    (request : Nat) : HttpResponse → Prop where
  | invalidKey (invalid : received.idempotencyKey.bind validateKey = none) :
      Answered hash received executions request invalidKeyResponse
  | tooLarge (large : maxRequestBody < received.body.length) :
      Answered hash received executions request payloadTooLarge
  | inFlight : Answered hash received executions request inFlightResponse
  | replayed {execution : Nat × HttpResponse} (mem : execution ∈ executions)
      (success : cacheable execution = true) :
      Answered hash received executions request (buildReplayResponse (cachedResponse hash execution.2))
  | executed {own : HttpResponse} (mem : (request, own) ∈ executions)
      (small : own.isSuccess = true → own.body.length ≤ maxResponseBody) :
      Answered hash received executions request own
  | oversized {own : HttpResponse} (mem : (request, own) ∈ executions) (success : own.isSuccess = true)
      (large : maxResponseBody < own.body.length) :
      Answered hash received executions request internalServerError

theorem Answered.mono {executions later : List (Nat × HttpResponse)}
    (answered : Answered hash received executions request response) (grown : executions ⊆ later) :
    Answered hash received later request response := by
  cases answered with
  | invalidKey invalid => exact .invalidKey invalid
  | tooLarge large => exact .tooLarge large
  | inFlight => exact .inFlight
  | replayed mem success => exact .replayed (grown mem) success
  | executed mem small => exact .executed (grown mem) small
  | oversized mem success large => exact .oversized (grown mem) success large

theorem Grows.refl (space : Keyspace Wire) : Grows cache space space :=
  ⟨List.Subset.refl _, fun _ same => same⟩

theorem Grows.trans {first second third : Keyspace Wire} (early : Grows cache first second)
    (late : Grows cache second third) : Grows cache first third where
  executions := List.Subset.trans early.executions late.executions
  cached stored same := late.cached stored (early.cached stored same)

theorem Undisturbed.refl (space : Keyspace Wire) : Undisturbed cache lock space space := ⟨rfl, rfl, rfl⟩

theorem Undisturbed.trans {first second third : Keyspace Wire} (early : Undisturbed cache lock first second)
    (late : Undisturbed cache lock second third) : Undisturbed cache lock first third where
  locked := late.locked.trans early.locked
  cached := late.cached.trans early.cached
  executions := late.executions.trans early.executions

theorem Undisturbed.successes {before after : Keyspace Wire} (same : Undisturbed cache lock before after) :
    after.successes = before.successes := by
  rw [Keyspace.successes, same.executions, Keyspace.successes]

theorem Acts.ofHolder {before after : Keyspace Wire} (holds : before.value lock = some (.lock request))
    (kept : Kept serde hash cache lock after) (grows : Grows cache before after) :
    Acts serde hash cache lock request before after where
  kept := kept
  grows := grows
  spares other isOther isHeld := by
    rw [holds] at isHeld
    cases isHeld
    exact absurd rfl isOther

theorem Acts.refl (kept : Kept serde hash cache lock space) : Acts serde hash cache lock request space space :=
  ⟨kept, .refl space, fun _ _ _ => .refl space⟩

/-! ## The commands of the holder -/

theorem Kept.ran (kept : Kept serde hash cache lock space) (holds : space.value lock = some (.lock request))
    (missing : space.value cache = none) (unused : space.successes = []) (response : HttpResponse) :
    Kept serde hash cache lock { space with executions := space.executions ++ [(request, response)] } where
  locked := kept.locked
  cached stored isStored := by
    rw [missing] at isStored
    cases isStored
  uncached _ := by
    unfold Keyspace.successes at unused ⊢
    rw [List.filter_append, unused]
    by_cases success : cacheable (request, response) = true
    · exact .inr ⟨(request, response), holds, by simp [success]⟩
    · exact .inl (by simp [success])

theorem Kept.stored {space : Keyspace Wire} {execution : Nat × HttpResponse} {wire : Wire}
    (kept : Kept serde hash cache lock space) (apart : cache ≠ lock)
    (once : space.successes = [execution])
    (parses : serde.fromSlice wire = some (cachedResponse hash execution.2)) :
    Kept serde hash cache lock (space.put cache (some (.json wire))) where
  locked stored isStored := by
    rw [Keyspace.value_put_of_ne _ _ apart.symm] at isStored
    exact kept.locked stored isStored
  cached stored isStored := by
    rw [Keyspace.value_put_self] at isStored
    cases isStored
    exact ⟨wire, execution, rfl, once, parses⟩
  uncached missing := by
    rw [Keyspace.value_put_self] at missing
    cases missing

theorem Kept.released (kept : Kept serde hash cache lock space) (apart : cache ≠ lock)
    (settled : space.value cache = none → space.successes = []) :
    Kept serde hash cache lock (space.put lock none) where
  locked stored isStored := by
    rw [Keyspace.value_put_self] at isStored
    cases isStored
  cached stored isStored := by
    rw [Keyspace.value_put_of_ne _ _ apart] at isStored
    exact kept.cached stored isStored
  uncached missing := by
    rw [Keyspace.value_put_of_ne _ _ apart] at missing
    exact .inl (settled missing)

/-- Nothing was stored and nobody holds the lock, so no success was had. -/
theorem Kept.acquired (kept : Kept serde hash cache lock space) (apart : cache ≠ lock)
    (free : space.value lock = none) (missing : space.value cache = none) (request : Nat) :
    space.successes = [] ∧ Kept serde hash cache lock (space.put lock (some (.lock request))) := by
  have unused : space.successes = [] := by
    rcases kept.uncached missing with unused | ⟨execution, isLocked, -⟩
    · exact unused
    · rw [free] at isLocked
      cases isLocked
  refine ⟨unused, ⟨?_, ?_, fun _ => .inl unused⟩⟩
  · intro stored isStored
    rw [Keyspace.value_put_self] at isStored
    cases isStored
    exact ⟨request, rfl⟩
  · intro stored isStored
    rw [Keyspace.value_put_of_ne _ _ apart, missing] at isStored
    cases isStored

/-! ## The contract -/

abbrev onceContract (serde : Serde Wire) (hash cache lock : Text) (request : Nat) :
    Thread.Contract HttpResponse RedisError (Keyspace Wire) where
  legal _ answer := ∃ response, answer = .ok response
  invariant := Kept serde hash cache lock
  rely := Relies cache lock request
  guarantee := Acts serde hash cache lock request

section

variable (apart : cache ≠ lock)
include apart

theorem releaseLock_meets (holds : space.value lock = some (.lock request))
    (settled : space.value cache = none → space.successes = [])
    (answered : Answered hash received space.executions request response) :
    Thread.Meets (onceContract serde hash cache lock request)
      (fun response space => Answered hash received space.executions request response) (fun _ _ => True)
      (releaseLock lock >>= fun _ => pure response) space := by
  unfold releaseLock
  rw [Thread.meets_bind, Thread.meets_bind, Thread.meets_attempt]
  refine .answered (fun legal => legal) fun later _ relied kept _ _ => ?_
  have same := relied.holds holds
  refine ⟨(), _, rfl, .ofHolder (same.locked.trans holds) (kept.released apart ?_) ?_, ?_⟩
  · rw [same.cached, same.successes]
    exact settled
  · refine ⟨List.Subset.refl _, fun stored isStored => ?_⟩
    rw [Keyspace.value_put_of_ne _ _ apart]
    exact isStored
  · simp only [Thread.meets_pure]
    rw [Keyspace.executions_put, same.executions]
    exact answered

/-- The holder stores its success and lets go of the lock. -/
theorem setEx_meets {wire : Wire} (holds : space.value lock = some (.lock request))
    (missing : space.value cache = none) (once : space.successes = [(request, response)])
    (parses : serde.fromSlice wire = some (cachedResponse hash response)) :
    Thread.Meets (onceContract serde hash cache lock request)
      (fun response space => Answered hash received space.executions request response) (fun _ _ => True)
      (setEx cache wire >>= fun _ => releaseLock lock >>= fun _ => pure response) space := by
  have isSuccess : (request, response) ∈ space.executions.filter cacheable := by
    rw [← Keyspace.successes, once]
    exact List.mem_singleton.mpr rfl
  obtain ⟨mine, small⟩ := List.mem_filter.mp isSuccess
  unfold setEx
  rw [Thread.meets_bind, Thread.meets_bind, Thread.meets_attempt]
  refine .answered (fun legal => legal) fun later _ relied kept _ _ => ?_
  have same := relied.holds holds
  have holds' := same.locked.trans holds
  refine ⟨(), _, rfl, .ofHolder holds' (kept.stored apart (same.successes.trans once) parses) ?_, ?_⟩
  · refine ⟨List.Subset.refl _, fun stored isStored => ?_⟩
    rw [same.cached, missing] at isStored
    cases isStored
  refine releaseLock_meets apart ?_ ?_ (.executed ?_ fun _ => ?_)
  · rw [Keyspace.value_put_of_ne _ _ apart.symm]
    exact holds'
  · intro gone
    rw [Keyspace.value_put_self] at gone
    cases gone
  · rw [Keyspace.executions_put, same.executions]
    exact mine
  · simp only [cacheable, Bool.decide_and, Bool.and_eq_true, decide_eq_true_eq] at small
    exact small.2

theorem handleAndCache_meets (holds : space.value lock = some (.lock request))
    (missing : space.value cache = none) (unused : space.successes = []) :
    Thread.Meets (onceContract serde hash cache lock request)
      (fun response space => Answered hash received space.executions request response) (fun _ _ => True)
      (handleAndCache serde cache lock hash request) space := by
  unfold handleAndCache runNext
  rw [Thread.meets_bind]
  refine .answered (fun legal => legal) fun later response relied kept _ _ => ?_
  have same := relied.holds holds
  have holds' := same.locked.trans holds
  have missing' := same.cached.trans missing
  have unused' := same.successes.trans unused
  refine ⟨response, _, rfl, .ofHolder holds' (kept.ran holds' missing' unused' response)
    ⟨List.subset_append_left _ _, fun _ isStored => isStored⟩, ?_⟩
  have mine : (request, response) ∈ later.executions ++ [(request, response)] := by simp
  have stays : cacheable (request, response) = false →
      Keyspace.successes { later with executions := later.executions ++ [(request, response)] } = [] := by
    intro failed
    unfold Keyspace.successes at unused' ⊢
    rw [List.filter_append, unused']
    simp [failed]
  by_cases success : response.isSuccess = true
  · by_cases large : maxResponseBody < response.body.length
    · simp only [success, large, Bool.not_true, Bool.false_eq_true, if_false, if_true]
      refine releaseLock_meets apart holds' (fun _ => stays ?_) (.oversized mine success large)
      simp [cacheable, large]
    have small : cacheable (request, response) = true := by
      simpa [cacheable, success] using large
    obtain ⟨wire, isWire, parses⟩ :=
      Option.bind_eq_some_iff.mp (serde.roundTrip (cachedResponse hash response))
    have once : Keyspace.successes { later with executions := later.executions ++ [(request, response)] } =
        [(request, response)] := by
      unfold Keyspace.successes at unused' ⊢
      rw [List.filter_append, unused']
      simp [small]
    simp only [success, large, Bool.not_true, Bool.false_eq_true, if_false, isWire]
    exact setEx_meets apart holds' missing' once parses
  · simp only [success, Bool.not_false, if_true]
    refine releaseLock_meets apart holds' (fun _ => stays ?_) (.executed mine fun is => absurd is success)
    simp [cacheable, success]

theorem acquireLock_meets (space : Keyspace Wire) :
    Thread.Meets (onceContract serde hash cache lock request)
      (fun acquired space => acquired = true → space.value lock = some (.lock request) ∧
        space.value cache = none ∧ space.successes = [])
      (fun _ _ => True) (acquireLock (LookupCurrent cache lock) lock request) space := by
  unfold acquireLock
  rw [Thread.meets_bind, Thread.meets_attempt]
  refine .answered (fun legal => legal) fun later _ _ kept current _ => ?_
  cases free : later.value lock with
  | some stored =>
    refine ⟨false, later, by rw [Keyspace.setNx, free], .refl kept, ?_⟩
    intro acquired
    cases acquired
  | none =>
    have missing := current trivial free
    obtain ⟨unused, acquired⟩ := kept.acquired apart free missing request
    refine ⟨true, later.put lock (some (.lock request)), by rw [Keyspace.setNx, free],
      ⟨acquired, ⟨List.Subset.refl _, ?_⟩, ?_⟩, fun _ => ⟨Keyspace.value_put_self .., ?_, unused⟩⟩
    · intro stored isStored
      rw [missing] at isStored
      cases isStored
    · intro other _ isHeld
      rw [free] at isHeld
      cases isHeld
    · rw [Keyspace.value_put_of_ne _ _ apart]
      exact missing

end

theorem cacheLookup_meets (received : HttpRequest) (space : Keyspace Wire) :
    Thread.Meets (onceContract serde hash cache lock request)
      (fun lookup space => match lookup with
        | .replay response => Answered hash received space.executions request response
        | .miss => True
        | .conflict => False
        | .error => False)
      (fun _ _ => True) (cacheLookup serde cache hash) space := by
  unfold cacheLookup
  rw [Thread.meets_bind, Thread.meets_attempt]
  change Thread.Meets _ _ _ (Thread.assuming (fun _ => True) (Thread.query _)) space
  refine .answered (fun legal => legal) fun later _ _ kept _ _ => ?_
  refine ⟨_, later, rfl, .refl kept, ?_⟩
  simp only [Thread.meets_pure]
  cases isStored : later.value cache with
  | none => trivial
  | some stored =>
    obtain ⟨wire, execution, rfl, once, parses⟩ := kept.cached stored isStored
    have isSuccess : execution ∈ later.executions.filter cacheable := by
      rw [← Keyspace.successes, once]
      exact List.mem_singleton.mpr rfl
    obtain ⟨mem, success⟩ := List.mem_filter.mp isSuccess
    simp only [classify, parses, cachedResponse, if_true]
    exact .replayed mem success

theorem middleware_meets {digest : Bytes → Text} {header scope : Text}
    (isPost : received.method = .post) (keyed : received.idempotencyKey = some header)
    (inScope : extractScope received = some scope) (space : Keyspace Wire) :
    Thread.Meets
      (onceContract serde (computeHash digest received) (cacheKey scope ((validateKey header).getD []))
        (lockKey scope ((validateKey header).getD [])) request)
      (fun response space => Answered (computeHash digest received) received space.executions request response)
      (fun _ _ => True) (middleware serde digest received request) space := by
  unfold middleware
  rw [if_neg (by simp [isPost])]
  simp only [keyed, inScope]
  cases isKey : validateKey header with
  | none => exact .invalidKey (by rw [keyed, Option.bind_some, isKey])
  | some key =>
    simp only [Option.getD_some]
    split
    next large => exact .tooLarge large
    refine (cacheLookup_meets received space).bind fun lookup space found => ?_
    cases lookup with
    | replay response => exact found
    | conflict => exact found.elim
    | error => exact found.elim
    | miss =>
      refine (acquireLock_meets (cacheKey_ne_lockKey scope key) space).bind fun acquired space holds => ?_
      cases acquired with
      | false => exact .inFlight
      | true =>
        obtain ⟨isHeld, missing, unused⟩ := holds rfl
        exact handleAndCache_meets (cacheKey_ne_lockKey scope key) isHeld missing unused

/-- The contracts of the copies of one request. -/
def onceSpec (serde : Serde Wire) (digest : Bytes → Text) (received : HttpRequest) (cache lock : Text) :
    Service.Spec (idempotencyDesk serde digest received) where
  invariant := Kept serde (computeHash digest received) cache lock
  rely := Relies cache lock
  guarantee _ := Acts serde (computeHash digest received) cache lock
  fresh _ _ := True
  post _ request response space :=
    Answered (computeHash digest received) received space.executions request response
  failure _ _ _ _ := True

theorem once_sound {digest : Bytes → Text} {header scope : Text}
    (isPost : received.method = .post) (keyed : received.idempotencyKey = some header)
    (inScope : extractScope received = some scope) :
    (onceSpec serde digest received (cacheKey scope ((validateKey header).getD []))
      (lockKey scope ((validateKey header).getD []))).Sound where
  initially := by
    rintro space ⟨absent, unused⟩
    obtain ⟨uncached, unlocked⟩ := absent scope ((validateKey header).getD [])
    refine ⟨⟨?_, ?_, fun _ => .inl (by simp [Keyspace.successes, unused])⟩, fun _ => trivial⟩
    · intro stored isStored
      rw [unlocked] at isStored
      cases isStored
    · intro stored isStored
      rw [uncached] at isStored
      cases isStored
  refl _ space := ⟨.refl space, fun _ => .refl space⟩
  trans early late :=
    ⟨early.grows.trans late.grows, fun holds =>
      (early.holds holds).trans (late.holds ((early.holds holds).locked.trans holds))⟩
  keeps _ acts := acts.kept
  compatible apart _ acts := ⟨acts.grows, acts.spares _ apart.symm⟩
  freshKept _ _ _ := trivial
  postStable relied answered := answered.mono relied.grows.executions
  failureStable _ _ := trivial
  meets _ _ := middleware_meets isPost keyed inScope _

/--
Of any number of copies of a request at most one runs the handler to a success
that is stored, in every run in which whoever takes the lock finds no response
that was stored since its lookup.  Every request that ended got the response of
that success, or was refused as in progress, or got what its own execution
came to.
-/
theorem executed_at_most_once {digest : Bytes → Text} {header scope : Text}
    (isPost : received.method = .post) (keyed : received.idempotencyKey = some header)
    (inScope : extractScope received = some scope)
    {pool : Pool Unit HttpResponse RedisError (Keyspace Wire) HttpResponse}
    (reached : (idempotencyDesk serde digest received).timely.Reachable pool) :
    pool.shared.successes.length ≤ 1 ∧
      ∀ request running response, pool.running[request]? = some running →
        running.thread = .done (.ok response) →
          Answered (computeHash digest received) received pool.shared.executions request response := by
  have holds := (once_sound isPost keyed inScope).holds reached
  constructor
  · cases isStored : pool.shared.value (cacheKey scope ((validateKey header).getD [])) with
    | some stored =>
      obtain ⟨_, execution, -, once, -⟩ := holds.invariant.cached stored isStored
      rw [once, List.length_singleton]
    | none =>
      rcases holds.invariant.uncached isStored with unused | ⟨execution, -, once⟩
      · simp [unused]
      · rw [once, List.length_singleton]
  · intro request running response here ended
    have meets := holds.meets request running here
    rw [ended] at meets
    exact meets

end Once

/-! ## Two successes, and answers that are not stored -/

def plainSerde : Serde CachedResponse where
  toVec := some
  fromSlice := some
  roundTrip _ := rfl

def emptyKeyspace : Keyspace CachedResponse := ⟨fun _ => none, []⟩

def creation : HttpRequest where
  method := .post
  path := ['/']
  idempotencyKey := some ['k']
  authorization := some ("Bearer ".toList ++ List.replicate 32 'a')
  body := []

def created : HttpResponse := ⟨201, [], []⟩

def rejected : HttpResponse := ⟨400, [], []⟩

abbrev CreationPool : Type := Pool Unit HttpResponse RedisError (Keyspace CachedResponse) HttpResponse

abbrev creationDesk : Service Unit HttpResponse RedisError (Keyspace CachedResponse) HttpResponse :=
  idempotencyDesk plainSerde (fun _ => []) creation

/-- Both requests look before the first stores its success, and the second takes the lock after it. -/
def createdTwice : CreationPool :=
  creationDesk.after emptyKeyspace
    [.start (), .start (), .run 0 (.ok created), .run 1 (.ok created), .run 0 (.ok created),
      .run 0 (.ok created), .run 0 (.ok created), .run 0 (.ok created), .run 1 (.ok created),
      .run 1 (.ok created)]

def rejectedOnce : CreationPool :=
  creationDesk.after emptyKeyspace
    [.start (), .run 0 (.ok created), .run 0 (.ok created), .run 0 (.ok rejected), .run 0 (.ok created)]

/-- A request that runs the handler, which answers more than can be stored. -/
def answerLarge (large : HttpResponse) (index : Nat) : List (PoolAction Unit HttpResponse RedisError) :=
  [.start (), .run index (.ok created), .run index (.ok created), .run index (.ok large),
    .run index (.ok created)]

def largeTwice (large : HttpResponse) : CreationPool :=
  creationDesk.after emptyKeyspace (answerLarge large 0 ++ answerLarge large 1)

def creationLock : Text := lockKey (List.replicate 32 'a') ['k']

/-- The pool in which the last thread has just been resumed. -/
def resumedLast (earlier : List (Running Unit HttpResponse RedisError (Keyspace CachedResponse) HttpResponse))
    (resumed : Keyspace CachedResponse ×
      Running Unit HttpResponse RedisError (Keyspace CachedResponse) HttpResponse) : CreationPool :=
  ⟨resumed.1, earlier ++ [resumed.2]⟩

theorem resume_large {large : HttpResponse} (success : large.isSuccess = true)
    (isLarge : maxResponseBody < large.body.length) (cache lock hash : Text) (index : Nat)
    (space : Keyspace CachedResponse) :
    (⟨(), handleAndCache plainSerde cache lock hash index⟩ : Running _ _ _ _ _).resume (.ok large) space =
      ({ space with executions := space.executions ++ [(index, large)] },
        ⟨(), releaseLock lock >>= fun _ => pure internalServerError⟩) := by
  unfold handleAndCache runNext
  rw [Running.resume_statement rfl]
  simp only [success, isLarge, Bool.not_true, Bool.false_eq_true, if_false, if_true]

/-- A handler that answers too much runs for each request anew. -/
theorem executions_largeTwice {large : HttpResponse} (success : large.isSuccess = true)
    (isLarge : maxResponseBody < large.body.length) :
    (largeTwice large).shared.executions = [(0, large), (1, large)] := by
  -- the length of the answer is not computed, so the two calls of the handler are taken by the lemma
  have resumes := resume_large success isLarge (cacheKey (List.replicate 32 'a') ['k']) creationLock []
  have first : creationDesk.after emptyKeyspace ((answerLarge large 0).take 4) = _ :=
    congrArg (resumedLast []) (resumes 0 (emptyKeyspace.put creationLock (some (.lock 0))))
  have second := congrArg (resumedLast [⟨(), .done (.ok internalServerError)⟩]) (resumes 1
    { ((emptyKeyspace.put creationLock (some (.lock 0))).put creationLock none).put creationLock
        (some (.lock 1)) with executions := [(0, large)] })
  have both := (congrArg (((answerLarge large 0).drop 4 ++ answerLarge large 1).foldl
    (Pool.perform creationDesk.body)) first).trans
      (congrArg (Pool.perform creationDesk.body · (.run 1 (.ok created))) second)
  exact congrArg (·.shared.executions) both

theorem createdTwice_rejectedOnce :
    (creationDesk.system.Reachable createdTwice ∧ createdTwice.shared.successes.length = 2) ∧
      (creationDesk.system.Reachable rejectedOnce ∧
        rejectedOnce.running.map Running.thread = [.done (.ok rejected)] ∧ rejected ≠ inFlightResponse ∧
        rejectedOnce.shared.value (cacheKey (List.replicate 32 'a') ['k']) = none) ∧
      ∃ large, creationDesk.system.Reachable (largeTwice large) ∧ large.isSuccess = true ∧
        (largeTwice large).shared.executions = [(0, large), (1, large)] := by
  have initial : creationDesk.initial emptyKeyspace := ⟨fun _ _ => ⟨rfl, rfl⟩, rfl⟩
  have legal : ∀ {space answer}, answer.error? = none → creationDesk.legal space answer := by
    intro space answer answered
    cases answer with
    | ok response => exact ⟨response, rfl⟩
    | failed e => cases answered
    | lost response e => cases answered
  have isLarge : maxResponseBody < (List.replicate (maxResponseBody + 1) (0 : UInt8)).length := by
    rw [List.length_replicate]
    exact Nat.lt_succ_self _
  refine ⟨⟨Service.reachable_of_answered initial legal (by decide), ?_⟩,
    ⟨Service.reachable_of_answered initial legal (by decide), ?_, by decide, ?_⟩,
    ⟨201, [], List.replicate (maxResponseBody + 1) 0⟩,
    Service.reachable_of_answered initial legal ?_, rfl, executions_largeTwice rfl isLarge⟩
  · rfl
  · rfl
  · rfl
  · simp [answerLarge, PoolAction.answered, Answer.error?]

/-- The second request comes after the first ended, and is answered from the store. -/
def replayed : CreationPool :=
  creationDesk.after emptyKeyspace
    [.start (), .run 0 (.ok created), .run 0 (.ok created), .run 0 (.ok created), .run 0 (.ok created),
      .run 0 (.ok created), .start (), .run 1 (.ok created)]

theorem replayed_once :
    replayed.shared.successes.length ≤ 1 ∧ Answered [] creation replayed.shared.executions 1
      (buildReplayResponse (cachedResponse [] created)) := by
  have reached : creationDesk.timely.Reachable replayed := by
    have initial : creationDesk.initial emptyKeyspace := ⟨fun _ _ => ⟨rfl, rfl⟩, rfl⟩
    refine Service.timely_of_path initial ?_
    repeat' apply And.intro
    all_goals first | trivial | exact ⟨_, rfl⟩ | (rintro running ⟨⟩; first | trivial | exact fun _ => rfl)
  obtain ⟨once, answers⟩ := executed_at_most_once rfl rfl rfl reached
  exact ⟨once, answers 1 _ _ rfl rfl⟩

end EthPayServer.Api.Idempotency
