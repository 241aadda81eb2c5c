import EthPayServer.Api.Admins

/-!
# What an administrator decided about an account

Administrators set the role of an account and lock it, while its owner changes
or removes its email.  The owner's endpoints read the whole row and write all
of it back, and so does the change of a role; the lock is a column of its own
to `lock_user` only.  An API key is accepted without a look at the lock.
-/

namespace EthPayServer.Api

open Lib Data
open Evm (Time Uuid)

/-! ## The handlers -/

structure EmailChange where
  token : Uuid
  userId : Uuid
  newEmail : Text
  expiresAt : Time
  consumedAt : Option Time
deriving DecidableEq

/-- The office and the emails that wait for their confirmation. -/
structure Docket where
  office : Office
  emailChanges : Table EmailChange.token

abbrev DocketT : Type → Type := Thread Time Rejection Docket

def officeView : Thread.View Office Rejection Docket Rejection where
  part := Docket.office
  replace office docket := { docket with office := office }
  fault := id
  report := id

/-- `9999-12-31T23:59:59Z`. -/
def farFuture : Time := 253402300799

section Handlers

variable (app : AppState) (token : Uuid)

def lockUserAccount (relied : Uuid → Office → Prop) (request : Nat) (authorization : Option Text) (userId : Text) :
    OfficeT Unit := do
  let _ ← (adminAuth app authorization).embed registryView
  match parseUuid userId with
  | none => Thread.fail ⟨.badRequest, "Invalid user ID"⟩
  | some uid =>
    (lockUser (relied uid) request uid farFuture).embed (mapErr fun _ => ⟨.internalServerError, "Failed to lock user"⟩)

def unlockUserAccount (request : Nat) (authorization : Option Text) (userId : Text) : OfficeT Unit := do
  let _ ← (adminAuth app authorization).embed registryView
  match parseUuid userId with
  | none => Thread.fail ⟨.badRequest, "Invalid user ID"⟩
  | some uid =>
    (unlockUser request uid).embed (mapErr fun _ => ⟨.internalServerError, "Failed to unlock user"⟩)

/-- Read the account, set its email and write it back; `relied` is told what was read. -/
def rewriteEmail (relied : UserRow → Office → Prop) (refuse : AuthError → Rejection) (id : Uuid)
    (email : Option Text) : OfficeT Unit := do
  match ← (getUser id).embed (mapErr fun _ => ⟨.internalServerError, "Could not load the account."⟩) with
  | none => Thread.fail ⟨.notFound, "That account no longer exists."⟩
  | some current =>
    (updateUser (relied current) [] { current with columns := { current.columns with email := email } }).embed
      (mapErr refuse)

def updateRefused (_ : AuthError) : Rejection := ⟨.internalServerError, "Could not update the account."⟩

def emailRefused (error : AuthError) : Rejection :=
  match error with
  | .userExists => ⟨.conflict, "That email is already in use."⟩
  | _ => updateRefused error

/-- A request that is neither consumed nor expired is taken by whoever comes first. -/
def Docket.consume (token : Uuid) (now : Time) (docket : Docket) : Option EmailChange × Docket :=
  match docket.emailChanges.find? token with
  | some change =>
    if change.consumedAt = none ∧ now < change.expiresAt then
      (some change, { docket with
        emailChanges := docket.emailChanges.put { change with consumedAt := some now } })
    else (none, docket)
  | none => (none, docket)

theorem Docket.office_consume (now : Time) (docket : Docket) :
    (docket.consume token now).2.office = docket.office := by
  unfold Docket.consume
  split
  · split <;> rfl
  · rfl

def consumeEmailChangeRequest (token : Uuid) : DocketT (Option EmailChange) :=
  Thread.statement fun now docket => .ok (docket.consume token now)

def confirmEmailChange (relied : UserRow → Office → Prop) (token : Uuid) : DocketT Unit := do
  match ← (consumeEmailChangeRequest token).attempt with
  | .error _ => Thread.fail ⟨.internalServerError, "Could not verify that code."⟩
  | .ok none => Thread.fail ⟨.badRequest, "That verification code is invalid or has expired."⟩
  | .ok (some pending) =>
    (rewriteEmail relied emailRefused pending.userId (some pending.newEmail)).embed officeView

def emailRemovalBlocker (hasEmail hasWallet : Bool) : Option Rejection :=
  if !hasEmail then some ⟨.badRequest, "No email is set."⟩
  else if !hasWallet then
    some ⟨.conflict, "Removing your email would leave this account with no way to recover it. " ++
      "Add a wallet first, or keep the email."⟩
  else none

def removeEmail (relied : UserRow → Office → Prop) (authorization : Option Text) : OfficeT Unit := do
  let user ← (freshlyAuthenticatedUser app authorization).embed registryView
  match emailRemovalBlocker user.email.isSome user.primaryWalletAddress.isSome with
  | some rejection => Thread.fail rejection
  | none => rewriteEmail relied updateRefused user.id none

end Handlers

/-! ## Every interleaving -/

inductive DocketRequest where
  | updateUserRole (authorization : Option Text) (userId role : Text)
  | lockUser (authorization : Option Text) (userId : Text)
  | unlockUser (authorization : Option Text) (userId : Text)
  | confirmEmailChange (token : Uuid)
  | removeEmail (authorization : Option Text)
  /-- a request that bears an API key -/
  | keyed (rawKey : Text) (narrowRole : Bool)

/-- The decision of a request, under its number. -/
def DocketRequest.decides (app : AppState) (index : Nat) : DocketRequest → Option Decision
  | .updateUserRole _ userId role => do
    let newRole ← app.parseRole role
    let uid ← parseUuid userId
    some (.role index uid newRole)
  | .lockUser _ userId => (parseUuid userId).map fun uid => .lock index uid (some farFuture)
  | .unlockUser _ userId => (parseUuid userId).map fun uid => .lock index uid none
  | _ => none

variable (user : UserRow) (office : Office)

def AsRead (user : UserRow) (office : Office) : Prop :=
  office.registry.standing user.id = some (user.role, user.columns.lockedUntil)

def LockAsRead (user : UserRow) (office : Office) : Prop :=
  (office.registry.standing user.id).map Prod.snd = some user.columns.lockedUntil

def NoActiveKey (registry : Registry) (id : Uuid) : Prop :=
  ∀ key ∈ registry.apiKeys.rows, key.userId = id → key.isActive = false

def LockedOut (start : Time) (registry : Registry) : Prop :=
  ∀ id role lockedUntil, registry.standing id = some (role, some lockedUntil) → start < lockedUntil →
    NoActiveKey registry id

def nothing {σ : Type} (thread : Thread Time Rejection σ Unit) : Thread Time Rejection σ (Option Validated) := do
  thread
  pure none

def decisionDesk (app : AppState) (start : Time) :
    Service DocketRequest Time Rejection Docket (Option Validated) where
  initial docket := docket.office.decisions = [] ∧ LockedOut start docket.office.registry
  legal _ _ := True
  body request index :=
    match request with
    | .updateUserRole authorization userId role =>
      nothing ((updateUserRole app (fun _ user _ => LockAsRead user) index authorization userId role).embed officeView)
    | .lockUser authorization userId =>
      nothing ((lockUserAccount app (fun id office => NoActiveKey office.registry id) index authorization
        userId).embed officeView)
    | .unlockUser authorization userId => nothing ((unlockUserAccount app index authorization userId).embed officeView)
    | .confirmEmailChange token => nothing (confirmEmailChange AsRead token)
    | .removeEmail authorization => nothing ((removeEmail app AsRead authorization).embed officeView)
    | .keyed rawKey narrowRole => do
      let validated ← ((validateApiKey app rawKey narrowRole).embed registryView).embed officeView
      pure (some validated)

/-! ## What stands -/

def Decision.role? (id : Uuid) : Decision → Option Role
  | .role _ account role => if account = id then some role else none
  | .lock _ _ _ => none

def Decision.lock? (id : Uuid) : Decision → Option (Option Time)
  | .role _ _ _ => none
  | .lock _ account lockedUntil => if account = id then some lockedUntil else none

variable (request : Nat) (account id : Uuid) (isActive : Bool)

/-- The role an administrator last gave the account. -/
def lastRole (decisions : List Decision) (id : Uuid) : Option Role :=
  (decisions.filterMap (Decision.role? id)).getLast?

/-- The lock an administrator last put on the account or took from it. -/
def lastLock (decisions : List Decision) (id : Uuid) : Option (Option Time) :=
  (decisions.filterMap (Decision.lock? id)).getLast?

def Upheld (office : Office) : Prop :=
  ∀ id role lockedUntil, office.registry.standing id = some (role, lockedUntil) →
    (∀ decided ∈ lastRole office.decisions id, role = decided) ∧
      ∀ decided ∈ lastLock office.decisions id, lockedUntil = decided

theorem lastRole_append_role (role : Role) :
    lastRole (decisions ++ [.role request account role]) id =
      if account = id then some role else lastRole decisions id := by
  unfold lastRole
  rw [List.filterMap_append]
  by_cases here : account = id <;> simp [Decision.role?, here]

theorem lastLock_append_role (role : Role) :
    lastLock (decisions ++ [.role request account role]) id = lastLock decisions id := by
  unfold lastLock
  rw [List.filterMap_append]
  simp [Decision.lock?]

theorem lastRole_append_lock (lockedUntil : Option Time) :
    lastRole (decisions ++ [.lock request account lockedUntil]) id = lastRole decisions id := by
  unfold lastRole
  rw [List.filterMap_append]
  simp [Decision.role?]

theorem lastLock_append_lock (lockedUntil : Option Time) :
    lastLock (decisions ++ [.lock request account lockedUntil]) id =
      if account = id then some lockedUntil else lastLock decisions id := by
  unfold lastLock
  rw [List.filterMap_append]
  by_cases here : account = id <;> simp [Decision.lock?, here]

/-- The invariant: decisions are upheld, and who is locked has no active key. -/
structure Sticks (start : Time) (office : Office) : Prop where
  upheld : Upheld office
  lockedOut : LockedOut start office.registry

section Writes

variable {start : Time} {office : Office} {user : UserRow}

/-- A row that is written back with its role and its lock as they are changes neither of any account. -/
theorem standing_of_asRead {registry : Registry} {row : UserRow}
    (same : registry.standing row.id = some (row.role, row.columns.lockedUntil)) (id : Uuid) :
    (registry.writeUser row).standing id = registry.standing id := by
  rw [Registry.standing_writeUser]
  split
  next here =>
    rw [here, same]
    rfl
  · rfl

theorem Sticks.rewritten (sticks : Sticks start office) (asRead : AsRead user office) (email : Option Text) :
    Sticks start (office.wrote [] { user with columns := { user.columns with email := email } }) := by
  have same : ∀ id, (office.wrote [] { user with columns := { user.columns with email := email } }).registry.standing
      id = office.registry.standing id := standing_of_asRead asRead
  constructor
  · intro id role lockedUntil found
    rw [same] at found
    have kept := sticks.upheld id role lockedUntil found
    unfold Office.wrote
    rw [List.append_nil]
    exact kept
  · intro id role lockedUntil found
    rw [same] at found
    exact sticks.lockedOut id role lockedUntil found

theorem Sticks.role (sticks : Sticks start office) (asRead : LockAsRead user office) (newRole : Role) :
    Sticks start (office.wrote [.role request user.id newRole] { user with role := newRole }) := by
  obtain ⟨⟨oldRole, lock⟩, before, isLock⟩ := Option.map_eq_some_iff.mp asRead
  dsimp only at isLock
  constructor
  · intro id role lockedUntil found
    simp only [Office.wrote, Registry.standing_writeUser] at found ⊢
    rw [lastRole_append_role, lastLock_append_role]
    split at found
    next here =>
      subst here
      rw [before] at found
      cases found
      refine ⟨by simp, ?_⟩
      rw [← isLock]
      exact (sticks.upheld user.id oldRole lock before).2
    next other =>
      rw [if_neg fun here => other here.symm]
      exact sticks.upheld id role lockedUntil found
  intro id role lockedUntil found
  simp only [Office.wrote, Registry.standing_writeUser] at found
  split at found
  next here =>
    subst here
    rw [before] at found
    simp only [Option.map_some, Option.some.injEq, Prod.mk.injEq] at found
    rw [isLock, found.2] at before
    exact sticks.lockedOut user.id oldRole lockedUntil before
  · exact sticks.lockedOut id role lockedUntil found

theorem Sticks.lock (sticks : Sticks start office) {account : Uuid} {lock : Option Time}
    (revoked : lock ≠ none → NoActiveKey office.registry account) :
    Sticks start { office with
      registry := office.registry.setLockedUntil account lock
      decisions := office.decisions ++ [.lock request account lock] } := by
  constructor
  · intro id role lockedUntil found
    simp only [Registry.standing_setLockedUntil] at found ⊢
    rw [lastRole_append_lock, lastLock_append_lock]
    split at found
    next here =>
      subst here
      obtain ⟨⟨oldRole, old⟩, before, isPair⟩ := Option.map_eq_some_iff.mp found
      cases isPair
      exact ⟨(sticks.upheld id oldRole old before).1, by simp⟩
    next other =>
      rw [if_neg fun here => other here.symm]
      exact sticks.upheld id role lockedUntil found
  intro id role lockedUntil found
  simp only [Registry.standing_setLockedUntil] at found
  split at found
  next here =>
    subst here
    obtain ⟨⟨oldRole, old⟩, before, isPair⟩ := Option.map_eq_some_iff.mp found
    cases isPair
    exact fun _ => revoked (by simp)
  · exact sticks.lockedOut id role lockedUntil found

end Writes

/-! ## The threads -/

structure OnRecord (before after : Office) : Prop where
  keys : after.registry.apiKeys = before.registry.apiKeys
  record : before.decisions ⊆ after.decisions

theorem OnRecord.refl : OnRecord office office := ⟨rfl, List.Subset.refl _⟩

theorem OnRecord.trans {first second third : Office} (early : OnRecord first second)
    (late : OnRecord second third) : OnRecord first third :=
  ⟨late.keys.trans early.keys, List.Subset.trans early.record late.record⟩

structure Abides (start : Time) (before after : Office) : Prop where
  onRecord : OnRecord before after
  sticks : Sticks start before → Sticks start after

theorem Abides.refl (start : Time) (office : Office) : Abides start office office := ⟨.refl office, id⟩

theorem Abides.wrote {start : Time} {office : Office} {note : List Decision} {user : UserRow}
    (sticks : Sticks start (office.wrote note user)) : Abides start office (office.wrote note user) :=
  ⟨⟨rfl, List.subset_append_left _ _⟩, fun _ => sticks⟩

theorem Abides.lock {start : Time} {office office' : Office} {request : Nat} {account : Uuid} {lock : Option Time}
    (revoked : lock ≠ none → NoActiveKey office.registry account)
    (done : setLock request account lock office = .ok ((), office')) :
    Abides start office office' ∧ Decision.lock request account lock ∈ office'.decisions := by
  rw [setLock_ok done]
  exact ⟨⟨⟨rfl, List.subset_append_left _ _⟩, fun sticks => sticks.lock request revoked⟩, by simp⟩

abbrev abiding (ε : Type) (start : Time) : Thread.Contract Time ε Office :=
  openContract ε (Sticks start) OnRecord (Abides start)

/-- A key that is not revoked is on file for the account. -/
def HoldsKey (registry : Registry) (id : Uuid) : Prop :=
  ∃ key ∈ registry.apiKeys.rows, key.userId = id ∧ key.isActive = true

section Contracts

variable {app : AppState} {start : Time} {office : Office} (authorization : Option Text)

theorem otherAdmins_readOnly (newRole : Role) : (otherAdmins user newRole).ReadOnly := by
  unfold otherAdmins
  split
  · refine .bind ((Thread.ReadOnly.query _).embed fun _ => rfl) fun allUsers => ?_
    split
    · exact .fail _
    · exact .pure _
  · exact .pure _

theorem updateUserRole_abides (userId role : Text) :
    (updateUserRole app (fun _ user _ => LockAsRead user) request authorization userId role).Meets (abiding _ start)
      (fun _ office => ∀ decision ∈ (DocketRequest.updateUserRole authorization userId role).decides app request,
        decision ∈ office.decisions) (fun _ _ => True) office := by
  refine (registryView_readOnly (adminAuth_readOnly app authorization)).andThen_meets (Abides.refl start)
    (fun _ _ => trivial) (fun _ office => ?_) office
  cases isRole : app.parseRole role with
  | none => trivial
  | some newRole =>
    cases isUuid : parseUuid userId with
    | none => trivial
    | some uid =>
      simp only
      refine (mapErr_meets (getUser_meets (Abides.refl start) uid)).bind ?_
      intro found office isOwn
      cases found with
      | none => trivial
      | some user =>
        obtain rfl := isOwn user rfl
        refine (otherAdmins_readOnly user newRole).andThen_meets (Abides.refl start) (fun _ _ => trivial)
          (fun counted office => ?_) office
        refine mapErr_meets (updateUser_meets (Abides.refl start) (fun _ => .inl trivial) ?_)
        intro office sticks asRead _
        refine ⟨.wrote (sticks.role request asRead newRole), ?_⟩
        intro decision isDecision
        simp only [DocketRequest.decides, isRole, isUuid, Option.bind_eq_bind, Option.bind_some,
          Option.mem_def, Option.some.injEq] at isDecision
        subst isDecision
        simp [Office.wrote]

/-- A lock is set or taken away where the premise says that no key is active. -/
theorem setLock_abides {relied : Office → Prop} {uid : Uuid} {lock : Option Time}
    (revoked : ∀ {office}, relied office → lock ≠ none → NoActiveKey office.registry uid) :
    (Thread.assuming relied (Thread.statement fun _ office => setLock request uid lock office)).Meets
      (abiding AuthError start) (fun _ office => Decision.lock request uid lock ∈ office.decisions)
      (fun _ _ => True) office := by
  refine .statement ?_ ?_ fun office _ _ _ => ⟨.refl start office, trivial⟩
  · intro before _ _ after _ _ premised _ done
    exact Abides.lock (revoked (premised trivial)) done
  · intro before _ _ _ after _ _ premised _ done
    exact ⟨(Abides.lock (revoked (premised trivial)) done).1, trivial⟩

theorem lockUserAccount_abides (userId : Text) :
    (lockUserAccount app (fun id office => NoActiveKey office.registry id) request authorization userId).Meets
      (abiding _ start)
      (fun _ office => ∀ decision ∈ (DocketRequest.lockUser authorization userId).decides app request,
        decision ∈ office.decisions) (fun _ _ => True) office := by
  refine (registryView_readOnly (adminAuth_readOnly app authorization)).andThen_meets (Abides.refl start)
    (fun _ _ => trivial) (fun _ office => ?_) office
  cases isUuid : parseUuid userId with
  | none => trivial
  | some uid =>
    refine (mapErr_meets (setLock_abides request fun noKey _ => noKey)).mono ?_ fun _ _ _ => trivial
    intro _ office noted
    simpa [DocketRequest.decides, isUuid] using noted

theorem unlockUserAccount_abides (userId : Text) :
    (unlockUserAccount app request authorization userId).Meets (abiding _ start)
      (fun _ office => ∀ decision ∈ (DocketRequest.unlockUser authorization userId).decides app request,
        decision ∈ office.decisions) (fun _ _ => True) office := by
  refine (registryView_readOnly (adminAuth_readOnly app authorization)).andThen_meets (Abides.refl start)
    (fun _ _ => trivial) (fun _ office => ?_) office
  cases isUuid : parseUuid userId with
  | none => trivial
  | some uid =>
    have free : ∀ {office : Office}, True → (none : Option Time) ≠ none → NoActiveKey office.registry uid :=
      fun _ locks => absurd rfl locks
    refine (mapErr_meets (setLock_abides request free)).mono ?_ fun _ _ _ => trivial
    intro _ office noted
    simpa [DocketRequest.decides, isUuid] using noted

theorem rewriteEmail_abides (refuse : AuthError → Rejection) (id : Uuid) (email : Option Text) :
    (rewriteEmail AsRead refuse id email).Respects (abiding _ start) office := by
  have reads : ((getUser id).embed (mapErr fun _ =>
      ⟨.internalServerError, "Could not load the account."⟩)).ReadOnly :=
    (Thread.ReadOnly.query _).embed fun _ => rfl
  refine reads.andThen_meets (Abides.refl start) (fun _ _ => trivial) (fun found office => ?_) office
  cases found with
  | none => trivial
  | some current =>
    refine mapErr_meets (updateUser_meets (Abides.refl start) (fun _ => .inl trivial) ?_)
    intro office sticks asRead _
    exact ⟨.wrote (sticks.rewritten asRead email), trivial⟩

theorem removeEmail_abides :
    (removeEmail app AsRead authorization).Respects (abiding _ start) office := by
  refine (registryView_readOnly (freshlyAuthenticatedUser_readOnly app authorization)).andThen_meets
    (Abides.refl start) (fun _ _ => trivial) (fun user office => ?_) office
  split
  · trivial
  · exact rewriteEmail_abides updateRefused user.id none

/-- While a key is validated, the keys stay. -/
abbrev keysKept : Thread.Contract Time Rejection Registry where
  legal _ _ := True
  invariant _ := True
  rely before after := after.apiKeys = before.apiKeys
  guarantee before after := after = before

/-- A key that is accepted was active when it was looked up, and is still. -/
theorem validateApiKey_meets (rawKey : Text) (narrowRole : Bool) (registry : Registry) :
    (validateApiKey app rawKey narrowRole).Meets keysKept
      (fun validated later => HoldsKey later validated.user.id) (fun _ _ => True) registry := by
  unfold validateApiKey
  refine (lookUp_meets (fun _ => rfl) _ _ registry).bind ?_
  rintro ⟨found, now⟩ registry ⟨isFound, -, -⟩
  dsimp only at isFound
  cases found with
  | none => trivial
  | some key =>
    dsimp only
    split
    · trivial
    next active =>
      split
      · trivial
      split
      · trivial
      refine (lookUp_meets (fun _ => rfl) _ _ registry).bind ?_
      rintro ⟨owner, _⟩ later ⟨isOwner, same, -⟩
      dsimp only at isOwner same
      cases owner with
      | none => trivial
      | some row =>
        refine ⟨key, ?_, (id_of_getUser isOwner.symm).symm, by simpa using active⟩
        rw [same]
        exact List.mem_of_find?_eq_some isFound.symm

theorem keyed_abides (rawKey : Text) (narrowRole : Bool) :
    ((validateApiKey app rawKey narrowRole).embed registryView).Meets (abiding _ start)
      (fun validated office => HoldsKey office.registry validated.user.id) (fun _ _ => True) office := by
  refine Thread.Meets.embed (t := office) (fun _ _ => rfl) (fun _ => trivial) (fun _ => trivial) ?_ ?_ ?_
    (fun _ => trivial) (validateApiKey_meets rawKey narrowRole office.registry) id
  · intro _ _ relied
    exact relied.keys
  · rintro office _ - rfl
    exact Abides.refl start office
  · intro _ _ holds
    exact holds

end Contracts

/-! ## Every run -/

def docketSpec (app : AppState) (start : Time) : Service.Spec (decisionDesk app start) where
  invariant docket := Sticks start docket.office
  rely _ before after := OnRecord before.office after.office
  guarantee _ _ before after := Abides start before.office after.office
  fresh _ _ := True
  post request index answer docket :=
    (∀ decision ∈ request.decides app index, decision ∈ docket.office.decisions) ∧
      ∀ validated ∈ answer, HoldsKey docket.office.registry validated.user.id
  failure _ _ _ _ := True

section Docket

variable {app : AppState} {start : Time} {docket : Docket} {request : DocketRequest} {index : Nat}

theorem officeView_meets {α : Type} {thread : OfficeT α} {post : α → Office → Prop}
    (meets : thread.Meets (abiding _ start) post (fun _ _ => True) docket.office) :
    (thread.embed officeView).Meets ((docketSpec app start).contract request index)
      (fun a docket => post a docket.office) (fun _ _ => True) docket := by
  refine meets.embed (fun _ _ => rfl) (fun _ => trivial) (fun holds => holds) (fun relied => relied)
    (fun _ kept => kept) ?_ (fun _ => trivial) id
  intro _ _ holds
  exact holds

theorem nothing_meets {thread : DocketT Unit}
    (meets : thread.Meets ((docketSpec app start).contract request index)
      (fun _ docket => ∀ decision ∈ request.decides app index, decision ∈ docket.office.decisions) (fun _ _ => True)
      docket) :
    (nothing thread).Meets ((docketSpec app start).contract request index)
      ((docketSpec app start).post request index) ((docketSpec app start).failure request index) docket := by
  unfold nothing
  refine meets.bind ?_
  intro _ docket noted
  exact ⟨noted, by rintro _ ⟨⟩⟩

theorem confirmEmailChange_meets (token : Uuid) :
    (confirmEmailChange AsRead token).Respects ((docketSpec app start).contract request index) docket := by
  unfold Thread.Respects confirmEmailChange
  rw [Thread.meets_bind, Thread.meets_attempt]
  have unmoved : ∀ {now : Time} {before after : Docket} {found : Option EmailChange},
      (Except.ok (before.consume token now) : Except Rejection _) = .ok (found, after) →
      Abides start before.office after.office := by
    intro now before after found done
    have same := Docket.office_consume token now before
    rw [Except.ok.inj done] at same
    dsimp only at same
    rw [same]
    exact Abides.refl start before.office
  refine Thread.Meets.statement ?_ ?_ fun docket _ _ _ => ⟨Abides.refl start docket.office, trivial⟩
  · intro before now found after _ _ _ _ done
    refine ⟨unmoved done, ?_⟩
    cases found with
    | none => trivial
    | some pending => exact officeView_meets (rewriteEmail_abides emailRefused pending.userId _)
  · intro before now _ _ after _ _ _ _ done
    exact ⟨unmoved done, trivial⟩

theorem silent {thread : DocketT Unit} (undecided : request.decides app index = none)
    (meets : thread.Respects ((docketSpec app start).contract request index) docket) :
    (nothing thread).Meets ((docketSpec app start).contract request index)
      ((docketSpec app start).post request index) ((docketSpec app start).failure request index) docket := by
  refine nothing_meets (meets.mono ?_ fun _ _ _ => trivial)
  rw [undecided]
  rintro _ _ - _ ⟨⟩

theorem docket_sound (app : AppState) (start : Time) : (docketSpec app start).Sound where
  initially := by
    rintro docket ⟨none, lockedOut⟩
    refine ⟨⟨?_, lockedOut⟩, fun _ => trivial⟩
    intro id role lockedUntil _
    rw [none]
    exact ⟨by rintro _ ⟨⟩, by rintro _ ⟨⟩⟩
  refl _ docket := OnRecord.refl docket.office
  trans early late := OnRecord.trans early late
  keeps sticks abides := abides.sticks sticks
  compatible _ _ abides := abides.onRecord
  freshKept _ _ _ := trivial
  postStable relied held := by
    refine ⟨fun decision isDecision => relied.record (held.1 decision isDecision), ?_⟩
    intro validated isValidated
    obtain ⟨key, mem, owned⟩ := held.2 validated isValidated
    exact ⟨key, relied.keys ▸ mem, owned⟩
  failureStable _ _ := trivial
  meets := by
    intro request i docket _ _
    cases request with
    | updateUserRole authorization userId role =>
      exact nothing_meets (officeView_meets (updateUserRole_abides i authorization userId role))
    | lockUser authorization userId =>
      exact nothing_meets (officeView_meets (lockUserAccount_abides i authorization userId))
    | unlockUser authorization userId =>
      exact nothing_meets (officeView_meets (unlockUserAccount_abides i authorization userId))
    | confirmEmailChange token => exact silent rfl (confirmEmailChange_meets token)
    | removeEmail authorization => exact silent rfl (officeView_meets (removeEmail_abides authorization))
    | keyed rawKey narrowRole =>
      change (_ >>= _ : DocketT _).Meets _ _ _ _
      refine (officeView_meets (keyed_abides rawKey narrowRole)).bind ?_
      rintro validated docket holds
      refine ⟨by rintro _ ⟨⟩, ?_⟩
      rintro _ ⟨⟩
      exact holds

end Docket

abbrev DocketPool : Type := Pool DocketRequest Time Rejection Docket (Option Validated)

/-- The account whose key a request was accepted with. -/
def accepted (pool : DocketPool) (index : Nat) : Option Uuid := do
  let result ← pool.result index
  let answer ← result.toOption
  let validated ← answer
  some validated.user.id

theorem result_of_accepted {pool : DocketPool} {index : Nat} {id : Uuid} (isAccepted : accepted pool index = some id) :
    ∃ validated, pool.result index = some (.ok (some validated)) ∧ validated.user.id = id := by
  obtain ⟨result, isResult, rest⟩ := Option.bind_eq_some_iff.mp isAccepted
  obtain ⟨answer, isAnswer, rest⟩ := Option.bind_eq_some_iff.mp rest
  obtain ⟨validated, rfl, isId⟩ := Option.bind_eq_some_iff.mp rest
  cases result with
  | error e => cases isAnswer
  | ok found =>
    cases isAnswer
    exact ⟨validated, isResult, Option.some.inj isId⟩

/--
A change that returned success is on record under its request, every account has the role and the
lock that were last decided about it, and no request was accepted with a key of
an account that is locked; in every run in which a whole row is written back
only over the role and the lock it was read with, and an account is locked only
when its keys are revoked.
-/
theorem decisions_stick {app : AppState} {start : Time} {pool : DocketPool}
    (reached : (decisionDesk app start).timely.Reachable pool) :
    (∀ (index : Nat) (request : DocketRequest) (answer : Option Validated),
      pool.running[index]? = some ⟨request, .done (.ok answer)⟩ →
      ∀ decision ∈ request.decides app index, decision ∈ pool.shared.office.decisions) ∧
    (∀ id row, pool.shared.office.registry.getUser id = some row →
      (∀ decided ∈ lastRole pool.shared.office.decisions id, row.role = decided) ∧
        ∀ decided ∈ lastLock pool.shared.office.decisions id, row.columns.lockedUntil = decided) ∧
    ∀ index id row lockedUntil now, accepted pool index = some id →
      pool.shared.office.registry.getUser id = some row → row.columns.lockedUntil = some lockedUntil →
      start ≤ now → ¬ now < lockedUntil := by
  have holds := (docket_sound app start).holds reached
  have stands : ∀ {id row}, pool.shared.office.registry.getUser id = some row →
      pool.shared.office.registry.standing id = some (row.role, row.columns.lockedUntil) := by
    intro id row found
    rw [Registry.standing, found]
    rfl
  refine ⟨fun index request answer ended => (holds.meets index _ ended).1,
    fun id row found => holds.invariant.upheld id _ _ (stands found), ?_⟩
  intro index id row lockedUntil now isAccepted found isLocked late future
  obtain ⟨validated, ended, rfl⟩ := result_of_accepted isAccepted
  obtain ⟨request, here⟩ := Pool.running_of_result ended
  obtain ⟨key, mem, owned, active⟩ := (holds.meets index _ here).2 validated rfl
  have locked := stands found
  rw [isLocked] at locked
  have revoked := holds.invariant.lockedOut _ _ _ locked (Nat.lt_of_le_of_lt late future) key mem owned
  rw [revoked] at active
  cases active

/-! ### Decisions that do not stick -/

def clerkKey (isActive : Bool) : ApiKey :=
  { viewerKey with userId := 2, keyHash := "ak_clerk".toList, isActive := isActive, permissions := none }

/-- Account 1 is the administrator; account 2 is about to change its email. -/
def deskRegistry (isActive : Bool) : Registry where
  ledger := { Ledger.empty with users := ⟨[⟨1, true⟩, ⟨2, false⟩], by decide⟩ }
  columns id := (newcomer id (uuidText id)).columns
  invoiceColumns := Registry.empty.invoiceColumns
  storePermissions := Registry.empty.storePermissions
  apiKeys := ⟨[clerkKey isActive], List.nodup_singleton _⟩
  sessions := clerkRegistry.sessions
  keyOwner := by
    intro key mem
    rw [List.mem_singleton.mp mem]
    cases isActive <;> decide
  sessionOwner := by decide

def deskDocket (isActive : Bool) : Docket where
  office := ⟨deskRegistry isActive, none, 0, []⟩
  emailChanges := ⟨[⟨9, 2, "c@d".toList, 100, none⟩], by decide⟩

theorem deskDocket_initial : (decisionDesk clerkApp 0).initial (deskDocket isActive) := by
  refine ⟨rfl, ?_⟩
  intro id role lockedUntil found
  rw [Registry.standing_eq] at found
  obtain ⟨user, -, isPair⟩ := Option.map_eq_some_iff.mp found
  cases isPair

def lockClerk : DocketRequest := .lockUser firstToken "00000000000000000000000000000002".toList

/-- The account is locked after the confirmation of its email has read it. -/
def undone : DocketPool :=
  (decisionDesk clerkApp 0).after (deskDocket true)
    [.start (.confirmEmailChange 9), .run 0 (.ok 0), .run 0 (.ok 0), .start lockClerk, .run 1 (.ok 0),
      .run 1 (.ok 0), .run 0 (.ok 0)]

def letIn : DocketPool :=
  (decisionDesk clerkApp 0).after (deskDocket true)
    [.start lockClerk, .run 0 (.ok 0), .run 0 (.ok 0), .start (.keyed "ak_clerk".toList true), .run 1 (.ok 0),
      .run 1 (.ok 0)]

/-- Both requests of `undone` succeed and the lock is gone; and `letIn` is let in. -/
theorem lock_does_not_stick :
    (decisionDesk clerkApp 0).system.Reachable undone ∧
      (undone.result 1).map Except.toOption = some (some none) ∧
      lastLock undone.shared.office.decisions 2 = some (some farFuture) ∧
      undone.shared.office.registry.standing 2 = some (.user, none) ∧
      (decisionDesk clerkApp 0).system.Reachable letIn ∧
      letIn.shared.office.registry.standing 2 = some (.user, some farFuture) ∧ accepted letIn 1 = some 2 :=
  ⟨Service.reachable_of_answered (deskDocket_initial true) (fun _ => trivial) (by decide), by decide +kernel,
    by decide +kernel, by decide +kernel,
    Service.reachable_of_answered (deskDocket_initial true) (fun _ => trivial) (by decide), by decide +kernel,
    by decide +kernel⟩

/-- With the key revoked, the account is locked, then its email confirmed, then the key presented. -/
def survived : DocketPool :=
  (decisionDesk clerkApp 0).after (deskDocket false)
    [.start lockClerk, .run 0 (.ok 0), .run 0 (.ok 0), .start (.confirmEmailChange 9), .run 1 (.ok 0),
      .run 1 (.ok 0), .run 1 (.ok 0), .start (.keyed "ak_clerk".toList true), .run 2 (.ok 0)]

theorem survived_timely : (decisionDesk clerkApp 0).timely.Reachable survived := by
  refine Service.timely_of_path (deskDocket_initial false) ?_
  repeat' apply And.intro
  all_goals try trivial
  all_goals rintro running ⟨⟩
  all_goals try trivial
  intro key mem
  rw [List.mem_singleton.mp mem]
  exact fun _ => rfl

theorem lock_sticks_to_clerk :
    lastLock survived.shared.office.decisions 2 = some (some farFuture) ∧
      ∀ row, survived.shared.office.registry.getUser 2 = some row → row.columns.lockedUntil = some farFuture := by
  have isLast : lastLock survived.shared.office.decisions 2 = some (some farFuture) := by decide +kernel
  exact ⟨isLast, fun row found => ((decisions_stick survived_timely).2.1 2 row found).2 _ isLast⟩

end EthPayServer.Api
