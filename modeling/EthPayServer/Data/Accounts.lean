import EthPayServer.Data.Ledger

/-!
# Accounts and their credentials

The `users` row beyond its role, the API keys and sessions that stand for an
account, and the permissions a membership carries.  The ledger keeps the id and
the role of a user; the other columns of the row stand beside it, by id.
-/

namespace EthPayServer.Data

open Lib
open Evm (Time Uuid)

inductive Role where
  | user
  | serverAdmin
deriving DecidableEq, Repr

/-- The columns of `users` beside the id and the role. -/
structure UserColumns where
  email : Option Text
  primaryWalletAddress : Option Text
  kdfSaltIdentifier : Option Text
  kdfParams : Text
  encryptedSymmetricKey : Text
  recoveryVerificationHash : Text
  createdAt : Time
  lastLoginAt : Option Time
  failedLoginAttempts : Nat
  lockedUntil : Option Time
deriving DecidableEq

/-- A whole row of `users`, as `get_user` reads it and `update_user` writes it. -/
structure UserRow where
  id : Uuid
  role : Role
  columns : UserColumns
deriving DecidableEq

/-- A uuid in its five groups of digits. -/
def uuidText (id : Uuid) : Text :=
  let digits := hexDigits 32 id
  digits.take 8 ++ '-' :: (digits.drop 8).take 4 ++ '-' :: (digits.drop 12).take 4 ++
    '-' :: (digits.drop 16).take 4 ++ '-' :: digits.drop 20

/-- What an account without a stored identifier was salted with. -/
def UserRow.computedSalt (row : UserRow) : Text :=
  match row.columns.email, row.columns.primaryWalletAddress with
  | _, some wallet => "wallet:".toList ++ wallet
  | some email, none => lower email
  | none, none => "passkey:".toList ++ uuidText row.id

/-- `row_to_user`: the identifier is never missing from what is read. -/
def rowToUser (row : UserRow) : UserRow :=
  { row with columns := { row.columns with
      kdfSaltIdentifier := some (row.columns.kdfSaltIdentifier.getD row.computedSalt) } }

structure ApiKey where
  id : Uuid
  userId : Uuid
  keyHash : Text
  isActive : Bool
  deprecatedAt : Option Time
  expiresAt : Option Time
  rateLimitRpm : Option Int
  isOperator : Bool
  /-- `none` inherits the owner's role in full -/
  permissions : Option (List Text)
deriving DecidableEq

structure Session where
  id : Uuid
  userId : Uuid
  createdAt : Time
  expiresAt : Time
  lastActivityAt : Time
deriving DecidableEq

/-- Columns of an invoice that only listings read. -/
structure InvoiceColumns where
  currency : Text
  createdAt : Time
deriving DecidableEq

/-- The ledger, the remaining columns of its rows, and the credentials. -/
structure Registry where
  ledger : Ledger
  columns : Uuid → UserColumns
  invoiceColumns : Uuid → InvoiceColumns
  /-- by user and store, the permissions of the role a membership names -/
  storePermissions : Uuid → Uuid → List Text
  apiKeys : Table ApiKey.id
  sessions : Table Session.id
  keyOwner : ∀ key ∈ apiKeys.rows, key.userId ∈ ledger.users.keys
  sessionOwner : ∀ session ∈ sessions.rows, session.userId ∈ ledger.users.keys

namespace Registry

def empty : Registry where
  ledger := Ledger.empty
  columns _ := ⟨none, none, none, [], [], [], 0, none, 0, none⟩
  invoiceColumns _ := ⟨[], 0⟩
  storePermissions _ _ := []
  apiKeys := Table.empty
  sessions := Table.empty
  keyOwner := by simp
  sessionOwner := by simp

def role (user : User) : Role := if user.isAdmin then .serverAdmin else .user

def row (registry : Registry) (user : User) : UserRow := ⟨user.id, role user, registry.columns user.id⟩

def getUser (id : Uuid) (registry : Registry) : Option UserRow :=
  (registry.ledger.getUser id).map fun user => rowToUser (registry.row user)

def getUserStores (userId : Uuid) (registry : Registry) : List UserStore :=
  registry.ledger.userStores.filter fun row => row.userId = userId

def getUserStore (userId storeId : Uuid) (registry : Registry) : Option UserStore :=
  registry.ledger.getUserStore userId storeId

/-- `user_has_store_permission`. -/
def userHasStorePermission (userId storeId : Uuid) (permission : Text) (registry : Registry) : Bool :=
  (registry.getUserStore userId storeId).isSome && permission ∈ registry.storePermissions userId storeId

/-- `get_api_key_auth_info`: `key_hash` is unique. -/
def getApiKeyAuthInfo (keyHash : Text) (registry : Registry) : Option ApiKey :=
  registry.apiKeys.rows.find? fun key => key.keyHash = keyHash

variable {registry : Registry}

theorem getUser_of_key {keyHash : Text} {key : ApiKey} (found : registry.getApiKeyAuthInfo keyHash = some key) :
    ∃ row, registry.getUser key.userId = some row := by
  have known := registry.keyOwner key (List.mem_of_find?_eq_some found)
  obtain ⟨user, isUser⟩ := Table.exists_find? known
  refine ⟨rowToUser (registry.row user), ?_⟩
  unfold getUser Ledger.getUser
  rw [isUser]
  rfl

def getSession (id : Uuid) (registry : Registry) : Option Session := registry.sessions.find? id

def IsMember (registry : Registry) (userId storeId : Uuid) : Prop :=
  ⟨userId, storeId⟩ ∈ registry.ledger.userStores

theorem isMember_of_getUserStore {userId storeId : Uuid}
    (found : (registry.getUserStore userId storeId).isSome = true) : registry.IsMember userId storeId := by
  obtain ⟨row, isRow⟩ := Option.isSome_iff_exists.mp found
  have mem := List.mem_of_find?_eq_some isRow
  have named := List.find?_some isRow
  simp only [decide_eq_true_eq] at named
  obtain ⟨rfl, rfl⟩ := named
  exact mem

theorem isMember_of_getUserStores {userId : Uuid} {row : UserStore} (mem : row ∈ registry.getUserStores userId)
    : registry.IsMember userId row.storeId := by
  obtain ⟨known, named⟩ := List.mem_filter.mp mem
  simp only [decide_eq_true_eq] at named
  subst named
  exact known

end Registry

end EthPayServer.Data
