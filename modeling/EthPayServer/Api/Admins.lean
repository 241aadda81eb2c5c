import EthPayServer.Data.Users
import EthPayServer.Api.Extractors
import EthPayServer.Api.Deletion

/-!
# Administrators

Registrations, changes of a role and deletions of accounts, interleaved at
their statements.  The first account of a server is made its administrator.
A change of role counts the administrators before it takes the role from one,
the deletion of another's account refuses an administrator, and the deletion of
one's own account asks nothing.
-/

namespace EthPayServer.Api

open Lib Data
open Evm (Time Uuid)

/-! ## The handlers -/

abbrev OfficeT : Type → Type := Thread Time Rejection Office

/-- An extractor, run against the tables. -/
def registryView : Thread.View Registry Rejection Office Rejection where
  part := Office.registry
  replace registry office := { office with registry := registry }
  fault := id
  report := id

/-- A call of the repository, with what the handler makes of its errors. -/
def mapErr (refuse : AuthError → Rejection) : Thread.View Office AuthError Office Rejection where
  part := id
  replace office _ := office
  fault rejection := .repository rejection.message
  report := refuse

def databaseError (_ : AuthError) : Rejection := ⟨.internalServerError, "Database error"⟩

/-- The answers of the deletions among those of the other handlers. -/
def Status.ofCode : StatusCode → Status
  | .badRequest => .badRequest
  | .notFound => .notFound
  | .conflict => .conflict
  | .internalServerError => .internalServerError

/-- The deletions, run against the ledger. -/
def ledgerView : Thread.View Ledger Refusal Office Rejection where
  part office := office.registry.ledger
  replace ledger office := { office with registry := office.registry.withLedger ledger }
  fault rejection := ⟨.internalServerError, rejection.message⟩
  report refusal := ⟨.ofCode refusal.status, refusal.message⟩

section Handlers

variable (app : AppState)

/-- The guard of a demotion: whom it counted. -/
def otherAdmins (user : UserRow) (newRole : Role) : OfficeT (List UserRow) :=
  if user.role = .serverAdmin ∧ newRole ≠ .serverAdmin then do
    let allUsers ← (listUsers 0 10000).embed (mapErr databaseError)
    if (allUsers.filter (·.role = .serverAdmin)).length ≤ 1 then
      Thread.fail ⟨.badRequest, "Cannot demote the last server admin"⟩
    else pure (allUsers.filter (·.role = .serverAdmin))
  else pure []

/-- `relied` is told what was read: the account, and the administrators the guard counted. -/
def updateUserRole (relied : Role → UserRow → List UserRow → Office → Prop) (request : Nat)
    (authorization : Option Text) (userId role : Text) : OfficeT Unit := do
  let _ ← (adminAuth app authorization).embed registryView
  match app.parseRole role with
  | none => Thread.fail ⟨.badRequest, "Invalid role"⟩
  | some newRole =>
    match parseUuid userId with
    | none => Thread.fail ⟨.badRequest, "Invalid user ID"⟩
    | some uid => do
      match ← (getUser uid).embed (mapErr databaseError) with
      | none => Thread.fail ⟨.notFound, "User not found"⟩
      | some user => do
        let counted ← otherAdmins user newRole
        (updateUser (relied newRole user counted) [.role request uid newRole] { user with role := newRole }).embed
          (mapErr databaseError)

/-- `DELETE /users/me`. -/
def deleteOwnAccount (relied : Uuid → Ledger → Prop) (authorization : Option Text) (confirm : Text) :
    OfficeT Unit := do
  let user ← (authenticatedUser app authorization).embed registryView
  (deleteAccount (relied user.id) ⟨user.id, user.email⟩ confirm).embed ledgerView

/-- `DELETE /admin/users/{id}`. -/
def deleteAccountOf (relied : Uuid → Ledger → Prop) (authorization : Option Text) (userId : Text) :
    OfficeT Unit := do
  let _ ← (adminAuth app authorization).embed registryView
  (deleteUserAccount (fun ledger => ∀ id ∈ parseUuid userId, relied id ledger) (parseUuid userId)).embed
    ledgerView

end Handlers

/-! ## Every interleaving -/

inductive OfficeRequest where
  | createUser (user : UserRow)
  /-- the transaction of a registration ends without a commit -/
  | rollBack
  | signIn (session : Session)
  | updateUserRole (authorization : Option Text) (userId role : Text)
  | deleteAccount (authorization : Option Text) (confirm : Text)
  | deleteUserAccount (authorization : Option Text) (userId : Text)

/-- A session is opened for an account that exists. -/
def signIn (session : Session) : UserT Unit :=
  Thread.statement fun _ office =>
    if fresh : session.id ∉ office.registry.sessions.keys then
      if owner : session.userId ∈ office.registry.ledger.users.keys then
        .ok ((), { office with registry := office.registry.addSession session fresh owner })
      else .error (.repository "foreign key constraint sessions_user_id_fkey")
    else .error (.repository "duplicate key value violates sessions_pkey")

/-- What a demotion read still holds: whom it counted, and that an account without the role has none to lose. -/
def AsCounted (newRole : Role) (user : UserRow) (counted : List UserRow) (office : Office) : Prop :=
  newRole ≠ .serverAdmin → (∀ other ∈ counted, office.registry.IsAdmin other.id) ∧
    (user.role ≠ .serverAdmin → ¬ office.registry.IsAdmin user.id)

/-- Whoever closes their account is not the last administrator. -/
def NotLast (id : Uuid) (ledger : Ledger) : Prop := ledger.IsAdmin id → ∃ other, other ≠ id ∧ ledger.IsAdmin other

/-- The account that is deleted is still no administrator. -/
def NoAdmin (id : Uuid) (ledger : Ledger) : Prop := ¬ ledger.IsAdmin id

variable (app : AppState)

/-- A server that begins without accounts. -/
def adminOffice (app : AppState) : Service OfficeRequest Time Rejection Office Unit where
  initial office := office.registry.ledger.users.rows = [] ∧ office.registration = none ∧ office.promotions = 0
  legal _ _ := True
  body request index :=
    match request with
    | .createUser user => (createUser index user).embed (mapErr databaseError)
    | .rollBack => rollBack.embed (mapErr databaseError)
    | .signIn session => (signIn session).embed (mapErr databaseError)
    | .updateUserRole authorization userId role => updateUserRole app AsCounted index authorization userId role
    | .deleteAccount authorization confirm => deleteOwnAccount app NotLast authorization confirm
    | .deleteUserAccount authorization userId => deleteAccountOf app NoAdmin authorization userId

/-! ## One statement -/

/-- A registration that was raised found no account, and none has come since. -/
def Settled (office : Office) : Prop :=
  ∀ registration ∈ office.registration, ∀ account ∈ registration.account, account.promoted = true →
    office.registry.ledger.users.rows = []

/-- The administrators do not run out, and while there is one nobody is raised. -/
def AdminKept (before after : Office) : Prop :=
  Settled before → Settled after ∧
    (before.registry.HasAdmin → after.registry.HasAdmin ∧ after.promotions = before.promotions)

theorem AdminKept.refl (office : Office) : AdminKept office office :=
  fun settled => ⟨settled, fun admin => ⟨admin, rfl⟩⟩

theorem AdminKept.trans {first second third : Office} (early : AdminKept first second)
    (late : AdminKept second third) : AdminKept first third := by
  intro settled
  obtain ⟨between, kept⟩ := early settled
  obtain ⟨after, keptLater⟩ := late between
  refine ⟨after, fun admin => ?_⟩
  obtain ⟨still, same⟩ := kept admin
  obtain ⟨last, sameLater⟩ := keptLater still
  exact ⟨last, sameLater.trans same⟩

variable {id : Uuid}

/-- A write to the tables that adds no account keeps the administrators when it leaves one. -/
theorem AdminKept.ofRegistry {registry : Registry} {decisions : List Decision}
    (shrinks : office.registry.ledger.users.rows = [] → registry.ledger.users.rows = [])
    (kept : office.registry.HasAdmin → registry.HasAdmin) :
    AdminKept office { office with registry := registry, decisions := decisions } :=
  fun settled => ⟨fun registration isOpen account isAccount promoted =>
    shrinks (settled registration isOpen account isAccount promoted), fun admin => ⟨kept admin, rfl⟩⟩

/-- Two administrators were counted, so one of them is another than the account. -/
theorem exists_other {counted : List UserRow} (nodup : (counted.map UserRow.id).Nodup)
    (several : 1 < counted.length) (id : Uuid) : ∃ other ∈ counted, other.id ≠ id := by
  match counted, nodup, several with
  | first :: second :: rest, nodup, _ =>
    by_cases isFirst : first.id = id
    · refine ⟨second, by simp, ?_⟩
      intro isSecond
      rw [← isSecond] at isFirst
      simp [isFirst] at nodup
    · exact ⟨first, by simp, isFirst⟩

/-- What the guard of a demotion has established. -/
structure Counted (user : UserRow) (newRole : Role) (counted : List UserRow) : Prop where
  several : user.role = .serverAdmin → newRole ≠ .serverAdmin → ∃ other ∈ counted, other.id ≠ user.id

theorem AdminKept.writeRole {user : UserRow} {newRole : Role} {counted : List UserRow}
    (guarded : Counted user newRole counted) (relied : AsCounted newRole user counted office)
    (known : user.id ∈ office.registry.ledger.users.keys) (note : List Decision) :
    AdminKept office (office.wrote note { user with role := newRole }) := by
  refine .ofRegistry (fun none => by simp [Table.keys, none] at known) ?_
  rintro ⟨id, admin⟩
  have others : ∀ other, other ≠ user.id → office.registry.IsAdmin other →
      (office.registry.writeUser { user with role := newRole }).IsAdmin other :=
    fun other isOther => (Registry.isAdmin_writeUser_of_ne { user with role := newRole } isOther).mpr
  by_cases raises : newRole = .serverAdmin
  · exact ⟨user.id, Registry.isAdmin_writeUser_self raises known⟩
  obtain ⟨still, unraised⟩ := relied raises
  by_cases other : id = user.id
  · subst other
    by_cases wasAdmin : user.role = .serverAdmin
    · obtain ⟨left, mem, isOther⟩ := guarded.several wasAdmin raises
      exact ⟨left.id, others left.id isOther (still left mem)⟩
    · exact absurd admin (unraised wasAdmin)
  · exact ⟨id, others id other admin⟩

theorem users_of_deleteUser {ledger after : Ledger} {result : Unit}
    (done : Ledger.deleteUser id ledger = .ok (result, after)) :
    after.users = ledger.users.filter fun user => user.id ≠ id := by
  unfold Ledger.deleteUser at done
  simp only at done
  split at done
  · cases done
  split at done
  · cases done
  · split at done
    · cases done
    · cases done
      rfl

/-- No account is added, and the administrators do not run out. -/
structure AdminsLeft (before after : Ledger) : Prop where
  shrinks : before.users.rows = [] → after.users.rows = []
  left : (∃ id, before.IsAdmin id) → ∃ id, after.IsAdmin id

theorem AdminsLeft.refl (ledger : Ledger) : AdminsLeft ledger ledger := ⟨id, id⟩

theorem AdminsLeft.deleteUser {ledger after : Ledger} (spared : NotLast id ledger)
    (done : Ledger.deleteUser id ledger = .ok ((), after)) : AdminsLeft ledger after := by
  have rest := users_of_deleteUser done
  constructor
  · intro none
    rw [rest]
    simp [Table.filter, none]
  rintro ⟨admin, isAdmin⟩
  have others : ∀ other, other ≠ id → ledger.IsAdmin other → after.IsAdmin other := by
    intro other isOther admin
    unfold Ledger.IsAdmin
    rw [rest]
    exact List.mem_filter.mpr ⟨admin, by simpa using isOther⟩
  by_cases isTarget : admin = id
  · obtain ⟨other, isOther, left⟩ := spared (isTarget ▸ isAdmin)
    exact ⟨other, others other isOther left⟩
  · exact ⟨admin, others admin isTarget isAdmin⟩

theorem NoAdmin.notLast {ledger : Ledger} (none : NoAdmin id ledger) : NotLast id ledger :=
  fun admin => absurd admin none

/-! ## The threads -/

/-- A contract in which the errors play no part. -/
abbrev openContract (ε : Type) (invariant : Office → Prop) (rely guarantee : Office → Office → Prop) :
    Thread.Contract Time ε Office where
  legal _ _ := True
  invariant := invariant
  rely := rely
  guarantee := guarantee

theorem mapErr_meets {α : Type} {thread : UserT α} {refuse : AuthError → Rejection} {invariant : Office → Prop}
    {rely guarantee : Office → Office → Prop} {post : α → Office → Prop}
    (meets : thread.Meets (openContract _ invariant rely guarantee) post (fun _ _ => True) office) :
    (thread.embed (mapErr refuse)).Meets (openContract _ invariant rely guarantee) post (fun _ _ => True)
      office := by
  refine meets.embed (fun _ _ => rfl) (fun _ => trivial) (fun holds => holds) (fun relied => relied)
    (fun _ kept => kept) ?_ (fun _ => trivial) id
  intro _ _ holds
  exact holds

theorem registryView_readOnly {α : Type} {thread : AuthT α} (reads : thread.ReadOnly) :
    (thread.embed registryView).ReadOnly :=
  reads.embed fun _ => rfl

abbrev keepsAdmin (ε : Type) : Thread.Contract Time ε Office :=
  openContract ε Settled (fun _ _ => True) AdminKept

section Contracts

variable {app : AppState} (authorization : Option Text)

theorem ledgerView_meets {thread : DeletionM Unit} (writes : thread.Writes AdminsLeft) :
    (thread.embed ledgerView).Respects (keepsAdmin _) office := by
  refine writes.embed_meets ?_ office
  intro _ _ _ kept
  exact .ofRegistry kept.shrinks kept.left

theorem createUser_writes (index : Nat) (user : UserRow) : (createUser index user).Writes AdminKept := by
  refine .bind (.statement AdminKept.refl ?_) fun _ => .bind (.statement AdminKept.refl ?_) fun _ => ?_
  · intro _ before _ after _ done
    split at done
    · cases done
      exact fun _ => ⟨by rintro _ ⟨⟩ _ ⟨⟩, fun admin => ⟨admin, rfl⟩⟩
    · cases done
  · intro _ before _ after _ done
    split at done
    · split at done
      · cases done
      split at done
      · cases done
      cases done
      refine fun _ => ⟨?_, fun admin => ⟨admin, rfl⟩⟩
      rintro _ ⟨⟩ _ ⟨⟩ promoted
      -- it was raised because the table is empty
      simp only [promotes, Bool.and_eq_true, List.isEmpty_iff] at promoted
      exact promoted.2
    · cases done
  refine .statement AdminKept.refl ?_
  intro _ before _ after _ done
  split at done
  next holder account isOpen =>
    split at done
    · split at done
      · cases done
        refine fun settled => ⟨by rintro _ ⟨⟩, ?_⟩
        rintro ⟨id, admin⟩
        refine ⟨⟨id, Registry.isAdmin_addUser admin⟩, ?_⟩
        cases promoted : account.promoted with
        | false => rfl
        | true =>
          have none := settled _ isOpen account rfl promoted
          rw [Registry.IsAdmin, Ledger.IsAdmin, none] at admin
          cases admin
      · cases done
    · cases done
  · cases done

theorem rollBack_writes : rollBack.Writes AdminKept := by
  refine .statement AdminKept.refl ?_
  rintro _ before _ after - ⟨⟩
  exact fun _ => ⟨by rintro _ ⟨⟩, fun admin => ⟨admin, rfl⟩⟩

theorem signIn_writes (session : Session) : (signIn session).Writes AdminKept := by
  refine .statement AdminKept.refl ?_
  intro _ before _ after _ done
  split at done
  · split at done
    · cases done
      exact .ofRegistry id id
    · cases done
  · cases done

theorem otherAdmins_meets (user : UserRow) (newRole : Role) :
    (otherAdmins user newRole).Meets (keepsAdmin _) (fun counted _ => Counted user newRole counted)
      (fun _ _ => True) office := by
  unfold otherAdmins
  split
  · rw [Thread.meets_bind]
    have listed : (listUsers 0 10000).Meets (keepsAdmin AuthError)
        (fun rows _ => (rows.map UserRow.id).Nodup) (fun _ _ => True) office :=
      .query AdminKept.refl (fun office _ _ => nodup_listUsersOf 0 10000 office.registry) fun _ _ _ _ => trivial
    refine (mapErr_meets listed).mono ?_ fun _ _ _ => trivial
    intro rows office nodup
    split
    · trivial
    next several =>
      refine ⟨fun _ _ => exists_other ?_ (by omega) user.id⟩
      exact nodup.sublist (List.filter_sublist.map _)
  next unguarded => exact ⟨fun wasAdmin demotes => absurd ⟨wasAdmin, demotes⟩ unguarded⟩

theorem updateUserRole_meets (i : Nat) (userId role : Text) :
    (updateUserRole app AsCounted i authorization userId role).Respects (keepsAdmin _) office := by
  refine (registryView_readOnly (adminAuth_readOnly app authorization)).andThen_meets AdminKept.refl
    (fun _ _ => trivial) (fun _ office => ?_) office
  cases app.parseRole role with
  | none => trivial
  | some newRole =>
    cases parseUuid userId with
    | none => trivial
    | some uid =>
      have reads : ((getUser uid).embed (mapErr databaseError)).ReadOnly :=
        (Thread.ReadOnly.query _).embed fun _ => rfl
      refine reads.andThen_meets AdminKept.refl (fun _ _ => trivial) (fun found office => ?_) office
      cases found with
      | none => trivial
      | some user =>
        simp only
        refine (otherAdmins_meets user newRole).bind ?_
        intro counted office guarded
        exact mapErr_meets (updateUser_meets AdminKept.refl (fun _ => .inl trivial) fun _ relied known =>
          ⟨.writeRole guarded relied known _, trivial⟩)

theorem deleteOwnAccount_meets (confirm : Text) :
    (deleteOwnAccount app NotLast authorization confirm).Respects (keepsAdmin _) office := by
  refine (registryView_readOnly (authenticatedUser_readOnly app authorization)).andThen_meets AdminKept.refl
    (fun _ _ => trivial) (fun user office => ?_) office
  exact ledgerView_meets (deleteAccount_writes AdminsLeft.refl AdminsLeft.deleteUser confirm)

theorem deleteAccountOf_meets (userId : Text) :
    (deleteAccountOf app NoAdmin authorization userId).Respects (keepsAdmin _) office := by
  refine (registryView_readOnly (adminAuth_readOnly app authorization)).andThen_meets AdminKept.refl
    (fun _ _ => trivial) (fun _ office => ?_) office
  exact ledgerView_meets (deleteUserAccount_writes AdminsLeft.refl
    fun isUser relied done => AdminsLeft.deleteUser (relied _ isUser).notLast done)

end Contracts

/-! ## Every run -/

abbrev officeSpec (app : AppState) : Service.Spec (adminOffice app) :=
  .plain _ Settled fun _ => AdminKept

theorem office_sound : (officeSpec app).Sound := by
  refine .plain ?_ (fun settled kept => (kept settled).1) ?_
  · rintro office ⟨-, none, -⟩ registration isOpen
    rw [none] at isOpen
    cases isOpen
  intro request i office _
  cases request with
  | createUser user => exact (createUser_writes i user).embed_meets (fun _ kept => kept) office
  | rollBack => exact rollBack_writes.embed_meets (fun _ kept => kept) office
  | signIn session => exact (signIn_writes session).embed_meets (fun _ kept => kept) office
  | updateUserRole authorization userId role => exact updateUserRole_meets authorization i userId role
  | deleteAccount authorization confirm => exact deleteOwnAccount_meets authorization confirm
  | deleteUserAccount authorization userId => exact deleteAccountOf_meets authorization userId

abbrev OfficePool : Type := Pool OfficeRequest Time Rejection Office Unit

/--
Once an account is an administrator, some account is one ever after and no
registration is raised, in every run in which nobody closes the account of the
last administrator and no statement comes between a check and the write that
relies on it.
-/
theorem admin_never_lost {app : AppState} {pool pool' : OfficePool}
    (reached : (adminOffice app).timely.Reachable pool) (admin : pool.shared.registry.HasAdmin)
    (run : (adminOffice app).timely.Run pool pool') :
    pool'.shared.registry.HasAdmin ∧ pool'.shared.promotions = pool.shared.promotions := by
  have settled := ((office_sound app).holds reached).invariant
  have kept := (office_sound app).run AdminKept.refl AdminKept.trans (fun kept => kept) reached run
  exact (kept settled).2 admin

/-! ### Two ways to lose the last administrator -/

/-- A new account with an email. -/
def newcomer (id : Uuid) (email : Text) : UserRow :=
  ⟨id, .user, ⟨some email, none, some email, [], [], [], 0, none, 0, none⟩⟩

def bearer (token : String) : Option Text := some ("Bearer ".toList ++ token.toList)

def firstToken : Option Text := bearer "00000000000000000000000000000001"

def secondToken : Option Text := bearer "00000000000000000000000000000002"

def emptyOffice : Office := ⟨Registry.empty, none, 0, []⟩

theorem emptyOffice_initial : (adminOffice clerkApp).initial emptyOffice := ⟨rfl, rfl, rfl⟩

/-- The thread at a position makes some calls, all answered. -/
def answered (index calls : Nat) : List (PoolAction OfficeRequest Time Rejection) :=
  List.replicate calls (.run index (.ok 0))

/-- The first account registers, signs in, and is the administrator. -/
def founding : List (PoolAction OfficeRequest Time Rejection) :=
  .start (.createUser (newcomer 1 "a@b".toList)) :: answered 0 3 ++
    .start (.signIn ⟨1, 1, 0, 100, 0⟩) :: answered 1 1

def founded : OfficePool := (adminOffice clerkApp).after emptyOffice founding

def closing : List (PoolAction OfficeRequest Time Rejection) :=
  .start (.deleteAccount firstToken "a@b".toList) :: answered 2 5

def closed : OfficePool := closing.foldl (Pool.perform (adminOffice clerkApp).body) founded

/-- Whoever registers next. -/
def reopening : List (PoolAction OfficeRequest Time Rejection) :=
  .start (.createUser (newcomer 2 "c@d".toList)) :: answered 3 3

def reopened : OfficePool := reopening.foldl (Pool.perform (adminOffice clerkApp).body) closed

/-- A second account registers, signs in, and is made an administrator. -/
def sharing : List (PoolAction OfficeRequest Time Rejection) :=
  .start (.createUser (newcomer 2 "c@d".toList)) :: answered 2 3 ++
    .start (.signIn ⟨2, 2, 0, 100, 0⟩) :: answered 3 1 ++
    .start (.updateUserRole firstToken "00000000000000000000000000000002".toList "server_admin".toList) ::
      answered 4 3

def twoAdmins : OfficePool := sharing.foldl (Pool.perform (adminOffice clerkApp).body) founded

/-- Each takes the role from the other; both are counted before either is written. -/
def feud : List (PoolAction OfficeRequest Time Rejection) :=
  .start (.updateUserRole firstToken "00000000000000000000000000000002".toList "user".toList) ::
    .start (.updateUserRole secondToken "00000000000000000000000000000001".toList "user".toList) ::
      answered 5 3 ++ answered 6 3 ++ answered 5 1 ++ answered 6 1

def feuded : OfficePool := feud.foldl (Pool.perform (adminOffice clerkApp).body) twoAdmins

/--
The last administrator closes their account and the next registration is
raised; and two administrators who take the role from each other leave none.
-/
theorem last_admin_lost :
    (adminOffice clerkApp).system.Reachable founded ∧ founded.shared.registry.HasAdmin ∧
      (adminOffice clerkApp).system.Run founded closed ∧ ¬ closed.shared.registry.HasAdmin ∧
      (adminOffice clerkApp).system.Run closed reopened ∧
      founded.shared.promotions = 1 ∧ reopened.shared.promotions = 2 ∧
      (adminOffice clerkApp).system.Run founded twoAdmins ∧ twoAdmins.shared.registry.HasAdmin ∧
      (adminOffice clerkApp).system.Run twoAdmins feuded ∧ ¬ feuded.shared.registry.HasAdmin := by
  have runs : ∀ {actions : List (PoolAction OfficeRequest Time Rejection)} (pool : OfficePool),
      (∀ action ∈ actions, action.answered = true) →
      (adminOffice clerkApp).system.Run pool (actions.foldl (Pool.perform (adminOffice clerkApp).body) pool) :=
    fun pool isAnswered => Service.run_of_answered (fun _ => trivial) isAnswered pool
  refine ⟨Service.reachable_of_answered emptyOffice_initial (fun _ => trivial) (by decide), by decide +kernel,
    runs founded (by decide), by decide +kernel, runs closed (by decide), by decide +kernel,
    by decide +kernel, runs founded (by decide), by decide +kernel, runs twoAdmins (by decide),
    by decide +kernel⟩

/-- A second account registers beside the first. -/
def joining : List (PoolAction OfficeRequest Time Rejection) :=
  .start (.createUser (newcomer 2 "c@d".toList)) :: answered 2 3

def joined : OfficePool := joining.foldl (Pool.perform (adminOffice clerkApp).body) founded

theorem founded_timely : (adminOffice clerkApp).timely.Reachable founded := by
  refine Service.timely_of_path emptyOffice_initial ?_
  repeat' apply And.intro
  all_goals first | trivial | (rintro running ⟨⟩; trivial)

theorem second_account_not_raised :
    joined.shared.registry.ledger.users.keys = [1, 2] ∧ joined.shared.registry.HasAdmin ∧
      joined.shared.promotions = founded.shared.promotions := by
  refine ⟨by decide +kernel, admin_never_lost founded_timely (by decide +kernel) (System.Path.run ?_)⟩
  repeat' apply And.intro
  all_goals first | trivial | (rintro running ⟨⟩; trivial)

end EthPayServer.Api
