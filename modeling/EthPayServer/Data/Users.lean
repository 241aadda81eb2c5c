import EthPayServer.Data.Accounts
import EthPayServer.Lib.Thread

/-!
# The user repository

`postgres/auth/user.rs`.  The first account of a server becomes its
administrator; which one is first is decided under an advisory lock that is
held until the registration commits.  `update_user` writes a whole row back,
role and lock included.
-/

namespace EthPayServer.Data

open Lib
open Evm (Time Uuid)

/-- A statement that breaks a unique index is reported as `userExists`. -/
inductive AuthError where
  | userExists
  | userNotFound
  | immutableField (field : String)
  | repository (message : String)
deriving DecidableEq, Repr

/-- A row that is inserted and not committed. -/
structure NewAccount where
  row : UserRow
  /-- the role was raised to `server_admin` -/
  promoted : Bool
deriving DecidableEq

/-- The transaction that holds `FIRST_ACCOUNT_LOCK`. -/
structure Registration where
  holder : Nat
  account : Option NewAccount
deriving DecidableEq

/-- What an administrator decides about an account, and in which request. -/
inductive Decision where
  | role (request : Nat) (account : Uuid) (role : Role)
  | lock (request : Nat) (account : Uuid) (lockedUntil : Option Time)
deriving DecidableEq

/-- The tables and the registration in progress; and, for the record, what has happened. -/
structure Office where
  registry : Registry
  registration : Option Registration
  /-- how many registrations were raised -/
  promotions : Nat
  /-- what administrators decided and wrote, oldest first -/
  decisions : List Decision

/-! ## Rows and their constraints -/

/-- The lengths of the `VARCHAR` columns. -/
def UserRow.fits (row : UserRow) : Bool :=
  row.columns.email.all (·.length ≤ 255) && row.columns.primaryWalletAddress.all (·.length ≤ 42) &&
    row.columns.kdfSaltIdentifier.all (·.length ≤ 255) && row.columns.recoveryVerificationHash.length ≤ 255

def UserRow.clashes (row other : UserRow) : Bool :=
  (row.columns.email.isSome && row.columns.email = other.columns.email) ||
    (row.columns.primaryWalletAddress.isSome &&
      row.columns.primaryWalletAddress = other.columns.primaryWalletAddress)

def User.withRole (id : Uuid) (role : Role) (user : User) : User :=
  if user.id = id then { user with isAdmin := role = .serverAdmin } else user

theorem User.id_withRole (id : Uuid) (role : Role) (user : User) : (user.withRole id role).id = user.id := by
  unfold User.withRole
  split <;> rfl

def Ledger.IsAdmin (ledger : Ledger) (id : Uuid) : Prop := (⟨id, true⟩ : User) ∈ ledger.users.rows

variable {registry : Registry} {id : Uuid} {row user : UserRow}

namespace Registry

/-- Another row has the email or the wallet. -/
def taken (row : UserRow) (registry : Registry) : Bool :=
  registry.ledger.users.rows.any fun user => user.id ≠ row.id && row.clashes (registry.row user)

def addUser (registry : Registry) (row : UserRow) (fresh : row.id ∉ registry.ledger.users.keys) :
    Registry :=
  { registry with
    ledger := { registry.ledger with
      users := registry.ledger.users.insert ⟨row.id, row.role = .serverAdmin⟩ fresh }
    columns := Function.update registry.columns row.id row.columns
    keyOwner := by
      intro key mem
      rw [Table.keys_insert]
      exact List.mem_append_left _ (registry.keyOwner key mem)
    sessionOwner := by
      intro session mem
      rw [Table.keys_insert]
      exact List.mem_append_left _ (registry.sessionOwner session mem) }

/-- What `update_user` writes: all of the row but its creation, and a stored identifier stays. -/
def writeUser (registry : Registry) (row : UserRow) : Registry :=
  { registry with
    ledger := { registry.ledger with
      users := registry.ledger.users.update (User.withRole row.id row.role) (User.id_withRole row.id row.role) }
    columns := Function.update registry.columns row.id { row.columns with
      kdfSaltIdentifier :=
        (registry.columns row.id).kdfSaltIdentifier.or row.columns.kdfSaltIdentifier
      createdAt := (registry.columns row.id).createdAt }
    keyOwner := by
      rw [Table.keys_update]
      exact registry.keyOwner
    sessionOwner := by
      rw [Table.keys_update]
      exact registry.sessionOwner }

def setLockedUntil (registry : Registry) (id : Uuid) (lockedUntil : Option Time) : Registry :=
  { registry with
    columns := Function.update registry.columns id { registry.columns id with lockedUntil := lockedUntil } }

/-- The registry over another ledger; what belonged to a user who is gone goes with them. -/
def withLedger (registry : Registry) (ledger : Ledger) : Registry :=
  { registry with
    ledger := ledger
    apiKeys := registry.apiKeys.filter fun key => key.userId ∈ ledger.users.keys
    sessions := registry.sessions.filter fun session => session.userId ∈ ledger.users.keys
    keyOwner := fun _ mem => of_decide_eq_true (List.mem_filter.mp mem).2
    sessionOwner := fun _ mem => of_decide_eq_true (List.mem_filter.mp mem).2 }

def addSession (registry : Registry) (session : Session) (fresh : session.id ∉ registry.sessions.keys)
    (owner : session.userId ∈ registry.ledger.users.keys) : Registry :=
  { registry with
    sessions := registry.sessions.insert session fresh
    sessionOwner := by
      intro other mem
      rw [Table.rows_insert] at mem
      rcases List.mem_append.mp mem with old | new
      · exact registry.sessionOwner other old
      · rw [List.mem_singleton.mp new]
        exact owner }

abbrev IsAdmin (registry : Registry) (id : Uuid) : Prop := registry.ledger.IsAdmin id

def HasAdmin (registry : Registry) : Prop := ∃ id, registry.IsAdmin id

theorem hasAdmin_iff : registry.ledger.users.rows.any User.isAdmin = true ↔ registry.HasAdmin := by
  rw [List.any_eq_true]
  constructor
  · rintro ⟨⟨id, isAdmin⟩, mem, rfl⟩
    exact ⟨id, mem⟩
  · rintro ⟨id, mem⟩
    exact ⟨_, mem, rfl⟩

instance (registry : Registry) : Decidable registry.HasAdmin := decidable_of_iff _ hasAdmin_iff

/-- The role of an account and how long it is locked. -/
def standing (registry : Registry) (id : Uuid) : Option (Role × Option Time) :=
  (registry.getUser id).map fun row => (row.role, row.columns.lockedUntil)

theorem standing_eq : registry.standing id =
    (registry.ledger.users.find? id).map fun user => (role user, (registry.columns id).lockedUntil) := by
  unfold standing getUser Ledger.getUser
  cases found : registry.ledger.users.find? id with
  | none => rfl
  | some user =>
    rw [← (Table.find?_eq_some.mp found).2]
    rfl

theorem role_withRole {user : User} (here : user.id = id) (written : Role) :
    role (user.withRole id written) = written := by
  unfold role User.withRole
  rw [if_pos here]
  cases written <;> rfl

theorem standing_writeUser (registry : Registry) (row : UserRow) (id : Uuid) :
    (registry.writeUser row).standing id =
      if id = row.id then (registry.standing id).map fun _ => (row.role, row.columns.lockedUntil)
      else registry.standing id := by
  rw [standing_eq, standing_eq, writeUser, Table.find?_update]
  cases found : registry.ledger.users.find? id with
  | none => simp
  | some user =>
    have isUser := (Table.find?_eq_some.mp found).2
    by_cases here : id = row.id
    · subst here
      simp [role_withRole isUser]
    · simp [User.withRole, isUser, here]

theorem standing_setLockedUntil (registry : Registry) (target : Uuid) (lockedUntil : Option Time) (id : Uuid) :
    (registry.setLockedUntil target lockedUntil).standing id =
      if id = target then (registry.standing id).map fun found => (found.1, lockedUntil)
      else registry.standing id := by
  rw [standing_eq, standing_eq, setLockedUntil]
  by_cases here : id = target
  · subst here
    simp [Option.map_map, Function.comp_def]
  · simp [here]

theorem isAdmin_addUser {fresh : row.id ∉ registry.ledger.users.keys} (admin : registry.IsAdmin id) :
    (registry.addUser row fresh).IsAdmin id := by
  unfold IsAdmin Ledger.IsAdmin addUser at *
  rw [Table.rows_insert]
  exact List.mem_append_left _ admin

/-- Writing a row back leaves the role of every other account. -/
theorem isAdmin_writeUser_of_ne (row : UserRow) (other : id ≠ row.id) :
    (registry.writeUser row).IsAdmin id ↔ registry.IsAdmin id := by
  unfold IsAdmin Ledger.IsAdmin writeUser
  rw [Table.rows_update, List.mem_map]
  constructor
  · rintro ⟨user, mem, isUser⟩
    have sameId : user.id = id := by rw [← User.id_withRole row.id row.role, isUser]
    rw [User.withRole, if_neg (sameId ▸ other)] at isUser
    exact isUser ▸ mem
  · intro mem
    exact ⟨_, mem, by rw [User.withRole, if_neg other]⟩

theorem isAdmin_writeUser_self (admin : row.role = .serverAdmin) (known : row.id ∈ registry.ledger.users.keys) :
    (registry.writeUser row).IsAdmin row.id := by
  obtain ⟨user, mem, isUser⟩ := Table.mem_keys.mp known
  unfold IsAdmin Ledger.IsAdmin writeUser
  rw [Table.rows_update, List.mem_map]
  refine ⟨user, mem, ?_⟩
  rw [User.withRole, if_pos isUser, admin, ← isUser]
  rfl

end Registry

/-! ## The statements -/

abbrev UserT : Type → Type := Thread Time AuthError Office

/-- `pg_advisory_xact_lock`: a wait that does not end is answered with an error. -/
def advisoryLock (index : Nat) : UserT Unit :=
  Thread.statement fun _ office =>
    match office.registration with
    | none => .ok ((), { office with registration := some ⟨index, none⟩ })
    | some _ => .error (.repository "canceling statement due to lock timeout")

/-- The role a new row is given: the first account with the default role is raised. -/
def promotes (user : UserRow) (registry : Registry) : Bool :=
  user.role = .user && registry.ledger.users.rows.isEmpty

/-- The `INSERT` of `create_user`, seen by nobody else before the commit. -/
def insertUser (index : Nat) (user : UserRow) : UserT Unit :=
  Thread.statement fun _ office =>
    if office.registration.any (·.holder = index) then
      if user.id ∈ office.registry.ledger.users.keys ∨ office.registry.taken user = true then
        .error .userExists
      else if !user.fits then .error (.repository "value too long")
      else
        let promoted := promotes user office.registry
        .ok ((), { office with registration := some ⟨index,
          some ⟨if promoted then { user with role := .serverAdmin } else user, promoted⟩⟩ })
    else .error (.repository "current transaction is aborted")

def commitUser (index : Nat) : UserT Unit :=
  Thread.statement fun _ office =>
    match office.registration with
    | some ⟨holder, some account⟩ =>
      if holder = index then
        if fresh : account.row.id ∉ office.registry.ledger.users.keys then
          .ok ((), { office with
            registry := office.registry.addUser account.row fresh
            registration := none
            promotions := office.promotions + if account.promoted then 1 else 0 })
        else .error .userExists
      else .error (.repository "current transaction is aborted")
    | _ => .error (.repository "current transaction is aborted")

/-- A transaction that was dropped or lost its connection is rolled back. -/
def rollBack : UserT Unit :=
  Thread.statement fun _ office => .ok ((), { office with registration := none })

def createUser (index : Nat) (user : UserRow) : UserT Unit := do
  advisoryLock index
  insertUser index user
  commitUser index

def getUser (id : Uuid) : UserT (Option UserRow) := Thread.query fun office => office.registry.getUser id

/-- Newest first. -/
def listUsersOf (offset limit : Nat) (registry : Registry) : List UserRow :=
  ((((registry.ledger.users.rows.map registry.row).insertionSort
    fun row other => other.columns.createdAt ≤ row.columns.createdAt).drop offset).take limit).map rowToUser

def listUsers (offset limit : Nat) : UserT (List UserRow) :=
  Thread.query fun office => listUsersOf offset limit office.registry

def saltAgrees (stored written : Option Text) : Bool := stored.isNone || stored = written

/--
The `UPDATE` of `update_user`, and how many rows it changed.  It waits for a
registration that would take its email or its wallet.  The record keeps what it
was a decision about.
-/
def updateRow (note : List Decision) (user : UserRow) (office : Office) : Except AuthError (Nat × Office) :=
  if user.id ∈ office.registry.ledger.users.keys ∧
      saltAgrees (office.registry.columns user.id).kdfSaltIdentifier user.columns.kdfSaltIdentifier = true then
    if office.registry.taken user ||
        office.registration.any (·.account.any fun account => user.clashes account.row) then
      .error .userExists
    else if !user.fits then .error (.repository "value too long")
    else .ok (1, { office with
      registry := office.registry.writeUser user
      decisions := office.decisions ++ note })
  else .ok (0, office)

def updateUser (relied : Office → Prop) (note : List Decision) (user : UserRow) : UserT Unit := do
  let affected ← Thread.assuming relied (Thread.statement fun _ office => updateRow note user office)
  if affected = 0 then do
    match ← Thread.query fun office => office.registry.ledger.getUser user.id with
    | some _ => Thread.fail (.immutableField "kdf_salt_identifier")
    | none => Thread.fail .userNotFound
  else pure ()

/-- `UPDATE users SET locked_until`. -/
def setLock (request : Nat) (id : Uuid) (lockedUntil : Option Time) (office : Office) :
    Except AuthError (Unit × Office) :=
  if id ∈ office.registry.ledger.users.keys then
    .ok ((), { office with
      registry := office.registry.setLockedUntil id lockedUntil
      decisions := office.decisions ++ [.lock request id lockedUntil] })
  else .error .userNotFound

def lockUser (relied : Office → Prop) (request : Nat) (id : Uuid) (lockedUntil : Time) : UserT Unit :=
  Thread.assuming relied (Thread.statement fun _ office => setLock request id (some lockedUntil) office)

def unlockUser (request : Nat) (id : Uuid) : UserT Unit :=
  Thread.statement fun _ office => setLock request id none office

/-! ### What they leave -/

/-- The office after an `UPDATE` that found its row. -/
def Office.wrote (office : Office) (note : List Decision) (user : UserRow) : Office :=
  { office with registry := office.registry.writeUser user, decisions := office.decisions ++ note }

theorem updateRow_ok {note : List Decision} {office office' : Office} {affected : Nat}
    (done : updateRow note user office = .ok (affected, office')) :
    affected = 0 ∧ office' = office ∨
      affected = 1 ∧ user.id ∈ office.registry.ledger.users.keys ∧ office' = office.wrote note user := by
  unfold updateRow at done
  split at done
  next found =>
    split at done
    · cases done
    · split at done
      · cases done
      · cases done
        exact .inr ⟨rfl, found.1, rfl⟩
  · cases done
    exact .inl ⟨rfl, rfl⟩

theorem setLock_ok {request : Nat} {lockedUntil : Option Time} {office office' : Office}
    (done : setLock request id lockedUntil office = .ok ((), office')) :
    office' = { office with
      registry := office.registry.setLockedUntil id lockedUntil
      decisions := office.decisions ++ [.lock request id lockedUntil] } := by
  unfold setLock at done
  split at done
  · cases done
    rfl
  · cases done

theorem nodup_listUsersOf (offset limit : Nat) (registry : Registry) :
    ((listUsersOf offset limit registry).map UserRow.id).Nodup := by
  unfold listUsersOf
  rw [List.map_map]
  have all : ((registry.ledger.users.rows.map registry.row).map UserRow.id).Nodup := by
    rw [List.map_map]
    exact registry.ledger.users.nodup
  have sorted := (((List.perm_insertionSort (fun row other : UserRow =>
    other.columns.createdAt ≤ row.columns.createdAt)
    (registry.ledger.users.rows.map registry.row)).map UserRow.id).nodup_iff).mpr all
  exact sorted.sublist (((List.take_sublist _ _).trans (List.drop_sublist _ _)).map _)

section Contracts

variable {contract : Thread.Contract Time AuthError Office} {office : Office}

/-- `update_user` writes nothing but the row it is given, and succeeds only if it wrote it. -/
theorem updateUser_meets (kept : ∀ office, contract.guarantee office office) {relied : Office → Prop}
    (sure : ∀ office, contract.assumes ∨ relied office) {note : List Decision} {post : Unit → Office → Prop}
    (writes : ∀ {office : Office}, contract.invariant office → relied office →
      user.id ∈ office.registry.ledger.users.keys →
      contract.guarantee office (office.wrote note user) ∧ post () (office.wrote note user)) :
    (updateUser relied note user).Meets contract post (fun _ _ => True) office := by
  unfold updateUser
  rw [Thread.meets_bind]
  refine .statement ?_ ?_ fun office _ _ _ => ⟨kept office, trivial⟩
  · intro before _ affected after _ holds premised _ done
    rcases updateRow_ok done with ⟨rfl, rfl⟩ | ⟨rfl, known, rfl⟩
    · refine ⟨kept _, ?_⟩
      rw [if_pos rfl, Thread.meets_bind]
      refine .query kept ?_ fun _ _ _ _ => trivial
      intro office _ _
      cases office.registry.ledger.getUser user.id <;> trivial
    · exact writes holds ((sure _).elim premised id) known
  · intro before _ _ affected after _ holds premised _ done
    rcases updateRow_ok done with ⟨rfl, rfl⟩ | ⟨rfl, known, rfl⟩
    · exact ⟨kept _, trivial⟩
    · exact ⟨(writes holds ((sure _).elim premised id) known).1, trivial⟩

/-- The row that is read is the account's own. -/
theorem getUser_meets (kept : ∀ office, contract.guarantee office office) (id : Uuid) :
    (getUser id).Meets contract (fun found _ => ∀ row ∈ found, row.id = id) (fun _ _ => True) office := by
  refine .query kept ?_ fun _ _ _ _ => trivial
  intro office _ _ row found
  obtain ⟨user, isUser, rfl⟩ := Option.map_eq_some_iff.mp found
  exact (Table.find?_eq_some.mp isUser).2

end Contracts

end EthPayServer.Data
