import EthPayServer.Data.Schema
import EthPayServer.Evm.Xpub

/-!
# Account wallets

A wallet is an extended public key of one account in one chain family with the
counter that consumes it.  Stores and payment methods point at wallets.  Every
function here is one transaction: it returns the new tables or an error, and an
error leaves the tables as they were.
-/

namespace EthPayServer.Data

open Lib
open Evm (Uuid ChainFamily)

/-- The generated column `chain_namespace`: the chain id up to its colon. -/
def ChainId.chainNamespace : ChainId → Text
  | .evm _ => ChainFamily.eip155
  | .other text => text.toList.takeWhile (· ≠ ':')

/-! ## Rows -/

structure Store where
  id : Uuid
  ownerId : Uuid
deriving DecidableEq

structure Wallet where
  id : Uuid
  userId : Uuid
  chainNamespace : Text
  xpub : VarChar 120
  /-- the next index to issue -/
  derivationIndex : Nat
  name : Option (VarChar 100)
  isPrimary : Bool
deriving DecidableEq

/-- The columns of the index over account, family and key. -/
def Wallet.holder (wallet : Wallet) : Uuid × Text × VarChar 120 :=
  (wallet.userId, wallet.chainNamespace, wallet.xpub)

/-- The columns of the index over primaries. -/
def Wallet.accountFamily (wallet : Wallet) : Uuid × Text := (wallet.userId, wallet.chainNamespace)

/-- A store's own wallet for a family. -/
structure StoreWallet where
  storeId : Uuid
  chainNamespace : Text
  walletId : Uuid
deriving DecidableEq

def StoreWallet.slot (override : StoreWallet) : Uuid × Text := (override.storeId, override.chainNamespace)

structure StorePaymentMethod where
  id : Uuid
  storeId : Uuid
  chainId : ChainId
  tokenAddress : Option (VarChar 42)
  assetSymbol : VarChar 32
  decimals : Nat
  /-- the wallet the method is pinned to -/
  walletId : Option Uuid
  enabled : Bool
deriving DecidableEq

structure DerivationAllocation where
  walletId : Uuid
  chainNamespace : Text
  xpub : Text
  index : Nat
deriving DecidableEq

/-- One payment method moved to another key. -/
structure WalletRotation where
  storeId : Uuid
  previousXpub : Text
  newXpub : Text
  paymentMethodId : Uuid
  previousDerivationIndex : Nat
deriving DecidableEq

/-! ## The table of wallets -/

/-- The table `wallets` with its unique indexes. -/
structure Wallets where
  table : Table Wallet.id
  /-- an account has one row for a key of a family -/
  xpubOnce : ∀ wallet ∈ table.rows, ∀ other ∈ table.rows, wallet.holder = other.holder → wallet = other
  /-- an account has one primary in a family -/
  onePrimary : ∀ wallet ∈ table.rows, ∀ other ∈ table.rows, wallet.isPrimary = true →
    other.isPrimary = true → wallet.accountFamily = other.accountFamily → wallet = other

variable {userId id storeId walletId : Uuid} {wallet : Wallet}

namespace Wallets

def empty : Wallets := ⟨Table.empty, by simp, by simp⟩

/-- The rows in insertion order. -/
def rows (wallets : Wallets) : List Wallet := wallets.table.rows

def insert (wallets : Wallets) (row : Wallet) (freshId : row.id ∉ wallets.table.keys)
    (freshHolder : ∀ wallet ∈ wallets.rows, wallet.holder ≠ row.holder)
    (freshPrimary : row.isPrimary = true → ∀ wallet ∈ wallets.rows,
      wallet.accountFamily ≠ row.accountFamily) : Wallets where
  table := wallets.table.insert row freshId
  xpubOnce := by
    intro wallet mem other memOther same
    simp only [Table.rows_insert, List.mem_append, List.mem_singleton] at mem memOther
    rcases mem with old | rfl
    · rcases memOther with old' | rfl
      · exact wallets.xpubOnce wallet old other old' same
      · exact absurd same (freshHolder wallet old)
    · rcases memOther with old' | rfl
      · exact absurd same.symm (freshHolder other old')
      · rfl
  onePrimary := by
    intro wallet mem other memOther primary primary' same
    simp only [Table.rows_insert, List.mem_append, List.mem_singleton] at mem memOther
    rcases mem with old | rfl
    · rcases memOther with old' | rfl
      · exact wallets.onePrimary wallet old other old' primary primary' same
      · exact absurd same (freshPrimary primary' wallet old)
    · rcases memOther with old' | rfl
      · exact absurd same.symm (freshPrimary primary other old')
      · rfl

/-- Change rows in place; account, family and key stay, and there is one primary afterwards. -/
def update (wallets : Wallets) (change : Wallet → Wallet)
    (keepsId : ∀ wallet, (change wallet).id = wallet.id)
    (keepsHolder : ∀ wallet, (change wallet).holder = wallet.holder)
    (onePrimary : ∀ wallet ∈ wallets.rows, ∀ other ∈ wallets.rows, (change wallet).isPrimary = true →
      (change other).isPrimary = true → wallet.accountFamily = other.accountFamily → wallet = other) :
    Wallets where
  table := wallets.table.update change keepsId
  xpubOnce := by
    intro wallet mem other memOther same
    obtain ⟨old, memOld, rfl⟩ := List.mem_map.mp mem
    obtain ⟨old', memOld', rfl⟩ := List.mem_map.mp memOther
    rw [keepsHolder, keepsHolder] at same
    rw [wallets.xpubOnce old memOld old' memOld' same]
  onePrimary := by
    intro wallet mem other memOther primary primary' same
    obtain ⟨old, memOld, rfl⟩ := List.mem_map.mp mem
    obtain ⟨old', memOld', rfl⟩ := List.mem_map.mp memOther
    have family : ∀ wallet, (change wallet).accountFamily = wallet.accountFamily := by
      intro wallet
      have same := keepsHolder wallet
      simp only [Wallet.holder, Prod.mk.injEq] at same
      simp only [Wallet.accountFamily, same.1, same.2.1]
    rw [family, family] at same
    rw [onePrimary old memOld old' memOld' primary primary' same]

/-- Change one row in place, except for what the indexes are over. -/
def modify (wallets : Wallets) (id : Uuid) (change : Wallet → Wallet)
    (keeps : ∀ wallet, (change wallet).id = wallet.id ∧ (change wallet).holder = wallet.holder ∧
      (change wallet).isPrimary = wallet.isPrimary) : Wallets :=
  wallets.update (fun wallet => if wallet.id = id then change wallet else wallet)
    (fun wallet => by split <;> simp [keeps])
    (fun wallet => by split <;> simp [keeps])
    (by
      intro wallet mem other memOther primary primary' same
      have kept : ∀ wallet : Wallet, (if wallet.id = id then change wallet else wallet).isPrimary =
          wallet.isPrimary := fun wallet => by split <;> simp [keeps]
      rw [kept] at primary primary'
      exact wallets.onePrimary wallet mem other memOther primary primary' same)

/-- The update of the upsert: a new name replaces the old one. -/
def rename (wallets : Wallets) (id : Uuid) (name : Option (VarChar 100)) : Wallets :=
  wallets.modify id (fun wallet => { wallet with name := name.or wallet.name }) fun _ => ⟨rfl, rfl, rfl⟩

def advance (wallets : Wallets) (id : Uuid) : Wallets :=
  wallets.modify id (fun wallet => { wallet with derivationIndex := wallet.derivationIndex + 1 })
    fun _ => ⟨rfl, rfl, rfl⟩

def delete (wallets : Wallets) (id : Uuid) : Wallets where
  table := wallets.table.filter fun wallet => wallet.id ≠ id
  xpubOnce := fun wallet mem other memOther =>
    wallets.xpubOnce wallet (List.mem_filter.mp mem).1 other (List.mem_filter.mp memOther).1
  onePrimary := fun wallet mem other memOther =>
    wallets.onePrimary wallet (List.mem_filter.mp mem).1 other (List.mem_filter.mp memOther).1

/-- The first statement of `set_primary_wallet`: no primary is left in the family. -/
def demote (userId : Uuid) (chainNamespace : Text) (wallet : Wallet) : Wallet :=
  if wallet.userId = userId ∧ wallet.isPrimary = true ∧ wallet.chainNamespace = chainNamespace then
    { wallet with isPrimary := false }
  else wallet

/-- Its second statement. -/
def promote (userId id : Uuid) (wallet : Wallet) : Wallet :=
  if wallet.id = id ∧ wallet.userId = userId then { wallet with isPrimary := true } else wallet

theorem keeps_demote (userId : Uuid) (chainNamespace : Text) (wallet : Wallet) :
    (demote userId chainNamespace wallet).id = wallet.id ∧
      (demote userId chainNamespace wallet).holder = wallet.holder := by
  unfold demote
  split <;> exact ⟨rfl, rfl⟩

theorem keeps_promote (userId id : Uuid) (wallet : Wallet) :
    (promote userId id wallet).id = wallet.id ∧ (promote userId id wallet).holder = wallet.holder := by
  unfold promote
  split <;> exact ⟨rfl, rfl⟩

/-- What is primary afterwards is the named wallet, or was primary outside its family. -/
theorem isPrimary_promote {chosen : Wallet} (owned : chosen.userId = userId)
    (primary : (promote userId chosen.id (demote userId chosen.chainNamespace wallet)).isPrimary = true) :
    wallet.id = chosen.id ∨ wallet.isPrimary = true ∧ wallet.accountFamily ≠ chosen.accountFamily := by
  by_cases isChosen : wallet.id = chosen.id
  · exact .inl isChosen
  refine .inr ?_
  have other : ¬ ((demote userId chosen.chainNamespace wallet).id = chosen.id ∧
      (demote userId chosen.chainNamespace wallet).userId = userId) := by
    rw [(keeps_demote userId chosen.chainNamespace wallet).1]
    exact fun both => isChosen both.1
  rw [promote, if_neg other] at primary
  unfold demote at primary
  split at primary
  · cases primary
  next outside =>
    refine ⟨primary, fun same => outside ?_⟩
    simp only [Wallet.accountFamily, Prod.mk.injEq] at same
    exact ⟨same.1.trans owned, primary, same.2⟩

/-- Make a wallet of the account the primary of its family. -/
def setPrimary (wallets : Wallets) (userId : Uuid) (chosen : Wallet) (mem : chosen ∈ wallets.rows)
    (owned : chosen.userId = userId) : Wallets :=
  wallets.update (fun wallet => promote userId chosen.id (demote userId chosen.chainNamespace wallet))
    (fun wallet => by rw [(keeps_promote _ _ _).1, (keeps_demote _ _ _).1])
    (fun wallet => by rw [(keeps_promote _ _ _).2, (keeps_demote _ _ _).2])
    (by
      intro wallet memWallet other memOther primary primary' same
      have isChosen : ∀ wallet ∈ wallets.rows, wallet.id = chosen.id → wallet = chosen :=
        fun wallet memWallet isId => wallets.table.eq_of_key memWallet mem isId
      rcases isPrimary_promote owned primary with here | ⟨old, outside⟩
      · rcases isPrimary_promote owned primary' with here' | ⟨_, outside'⟩
        · rw [isChosen wallet memWallet here, isChosen other memOther here']
        · rw [isChosen wallet memWallet here] at same
          exact absurd same.symm outside'
      · rcases isPrimary_promote owned primary' with here' | ⟨old', _⟩
        · rw [isChosen other memOther here'] at same
          exact absurd same outside
        · exact wallets.onePrimary wallet memWallet other memOther old old' same)

end Wallets

/-! ## The tables -/

structure AccountDb where
  stores : Table Store.id
  wallets : Wallets
  storeWallets : Table StoreWallet.slot
  methods : Table StorePaymentMethod.id

namespace AccountDb

/-- The wallet a store derives from for a family: its override, else the owner's primary. -/
def storeWalletResolution (db : AccountDb) (store : Store) (chainNamespace : Text) : Option Uuid :=
  ((db.storeWallets.find? (store.id, chainNamespace)).map StoreWallet.walletId).or
    ((db.wallets.rows.find? fun wallet => wallet.userId = store.ownerId ∧ wallet.isPrimary = true ∧
      wallet.chainNamespace = chainNamespace).map Wallet.id)

/-- The wallet a payment method derives from: its pin, else what its store resolves to. -/
def methodWallet (db : AccountDb) (store : Store) (method : StorePaymentMethod) : Option Uuid :=
  method.walletId.or (db.storeWalletResolution store method.chainId.chainNamespace)

/-- The wallet row a payment method resolves to, if it is of the method's family. -/
def resolvedWallet (db : AccountDb) (method : StorePaymentMethod) : Option Wallet := do
  let store ← db.stores.find? method.storeId
  let walletId ← db.methodWallet store method
  let wallet ← db.wallets.table.find? walletId
  if wallet.chainNamespace = method.chainId.chainNamespace then some wallet else none

end AccountDb

def storeResolvesToAWallet (storeId : Uuid) (chainNamespace : Text) (db : AccountDb) : Bool :=
  ((db.stores.find? storeId).bind fun store => db.storeWalletResolution store chainNamespace).isSome

def findStore (storeId : Uuid) (db : AccountDb) : Except RepositoryError Store :=
  match db.stores.find? storeId with
  | some store => .ok store
  | none => .error (.notFound "store not found")

/-! ## Registering keys -/

/-- Refuse a key that another account already holds. -/
def rejectIfAnotherAccountHolds (userId : Uuid) (xpub : Text) (db : AccountDb) :
    Except RepositoryError Unit :=
  if db.wallets.rows.any fun wallet => wallet.xpub.val = xpub ∧ wallet.userId ≠ userId then
    .error (.conflict "this xpub is already registered to another account")
  else .ok ()

/-- The domain `caip2_namespace`. -/
def caip2Namespace (text : Text) : Except RepositoryError Text :=
  if 3 ≤ text.length ∧ text.length ≤ 8 ∧
      text.all (fun c => c = '-' ∨ ('a' ≤ c ∧ c ≤ 'z') ∨ ('0' ≤ c ∧ c ≤ '9')) then .ok text
  else .error (refused "value for domain caip2_namespace violates check constraint")

/-- The row `upsert_wallet` inserts: a counter at zero, primary if it is the first of its family. -/
def newWallet (id userId : Uuid) (chainNamespace : Text) (xpub : VarChar 120)
    (name : Option (VarChar 100)) (wallets : Wallets) : Wallet where
  id := id
  userId := userId
  chainNamespace := chainNamespace
  xpub := xpub
  derivationIndex := 0
  name := name
  isPrimary := !wallets.rows.any fun wallet =>
    wallet.userId = userId ∧ wallet.chainNamespace = chainNamespace

theorem newWallet_primary {chainNamespace : Text} {xpub : VarChar 120} {name : Option (VarChar 100)}
    {wallets : Wallets} (primary : (newWallet id userId chainNamespace xpub name wallets).isPrimary = true) :
    ∀ wallet ∈ wallets.rows, wallet.accountFamily ≠
      (newWallet id userId chainNamespace xpub name wallets).accountFamily := by
  intro wallet mem same
  simp only [Wallet.accountFamily, newWallet, Prod.mk.injEq] at same
  simp only [newWallet, Bool.not_eq_true', List.any_eq_false, decide_eq_true_eq] at primary
  exact primary wallet mem same

/-- The wallet an account holds a key in. -/
def findHolder (userId : Uuid) (chainNamespace : Text) (xpub : VarChar 120) (wallets : Wallets) :
    Option Wallet :=
  wallets.rows.find? fun wallet => wallet.holder = (userId, chainNamespace, xpub)

theorem findHolder_none {chainNamespace : Text} {xpub : VarChar 120} {wallets : Wallets}
    (missing : findHolder userId chainNamespace xpub wallets = none) :
    ∀ wallet ∈ wallets.rows, wallet.holder ≠ (userId, chainNamespace, xpub) := by
  intro wallet mem same
  have differs := List.find?_eq_none.mp missing wallet mem
  exact differs (decide_eq_true same)

def Wallets.register (wallets : Wallets) {id userId : Uuid} {chainNamespace : Text} {xpub : VarChar 120}
    (name : Option (VarChar 100)) (freshId : id ∉ wallets.table.keys)
    (missing : findHolder userId chainNamespace xpub wallets = none) : Wallets :=
  wallets.insert (newWallet id userId chainNamespace xpub name wallets) freshId
    (findHolder_none missing) newWallet_primary

/-- Find or create the wallet that holds a key for an account in a family. -/
def upsertWallet (id userId : Uuid) (chainNamespace xpub : Text) (name : Option Text) (db : AccountDb) :
    Except RepositoryError (Wallet × AccountDb) := do
  let chainNamespace ← caip2Namespace chainNamespace
  let xpub ← varChar 120 xpub
  let name ← nullable (varChar 100) name
  match found : findHolder userId chainNamespace xpub db.wallets with
  | some existing =>
    .ok ({ existing with name := name.or existing.name },
      { db with wallets := db.wallets.rename existing.id name })
  | none =>
    if freshId : id ∉ db.wallets.table.keys then
      .ok (newWallet id userId chainNamespace xpub name db.wallets,
        { db with wallets := db.wallets.register name freshId found })
    else .error (refused "duplicate key value violates unique constraint \"wallets_pkey\"")

def createWallet (id userId : Uuid) (chainNamespace xpub : Text) (name : Option Text) (db : AccountDb) :
    Except RepositoryError (Wallet × AccountDb) := do
  rejectIfAnotherAccountHolds userId xpub db
  upsertWallet id userId chainNamespace xpub name db

/-- The wallet of a store's owner for a key pasted onto a payment method. -/
def walletForStoreXpub (id storeId : Uuid) (chainNamespace xpub : Text) (db : AccountDb) :
    Except RepositoryError (Uuid × AccountDb) := do
  let store ← findStore storeId db
  rejectIfAnotherAccountHolds store.ownerId xpub db
  let (wallet, db') ← upsertWallet id store.ownerId chainNamespace xpub none db
  pure (wallet.id, db')

def setPrimaryWallet (userId walletId : Uuid) (db : AccountDb) :
    Except RepositoryError (Wallet × AccountDb) :=
  match found : db.wallets.table.find? walletId with
  | some chosen =>
    if owned : chosen.userId = userId then
      let promoted := db.wallets.setPrimary userId chosen (Table.find?_eq_some.mp found).1 owned
      .ok ({ chosen with isPrimary := true }, { db with wallets := promoted })
    else .error (.notFound "wallet not found")
  | none => .error (.notFound "wallet not found")

/-- Refused while an override or a pin names the wallet; past payments do not hold it. -/
def deleteWallet (walletId : Uuid) (db : AccountDb) : Except RepositoryError AccountDb :=
  if walletId ∈ db.wallets.table.keys then
    if (db.methods.rows.any fun method => method.walletId = some walletId) ||
        (db.storeWallets.rows.any fun override => override.walletId = walletId) then
      .error (.conflict "wallet is still used by a store or payment method")
    else .ok { db with wallets := db.wallets.delete walletId }
  else .error (.notFound "wallet not found")

/-! ## Pointing stores and payment methods at wallets -/

/-- The payment methods of a store in a family lose their pins. -/
def unpin (storeId : Uuid) (chainNamespace : Text) (methods : Table StorePaymentMethod.id) :
    Table StorePaymentMethod.id :=
  methods.update (fun method =>
    if method.storeId = storeId ∧ method.chainId.chainNamespace = chainNamespace then
      { method with walletId := none }
    else method) fun method => by split <;> rfl

def setStoreWallet (storeId walletId : Uuid) (db : AccountDb) : Except RepositoryError AccountDb := do
  let store ← findStore storeId db
  match db.wallets.rows.find? fun wallet => wallet.id = walletId ∧ wallet.userId = store.ownerId with
  | some wallet => .ok { db with
      storeWallets := db.storeWallets.put ⟨storeId, wallet.chainNamespace, walletId⟩
      methods := unpin storeId wallet.chainNamespace db.methods }
  | none => .error (.notFound "store or wallet not found, or the wallet belongs to another account")

def clearStoreWallet (storeId : Uuid) (chainNamespace : Text) (db : AccountDb) :
    Except RepositoryError AccountDb := do
  let _ ← findStore storeId db
  .ok { db with
    storeWallets := db.storeWallets.filter fun override => override.slot ≠ (storeId, chainNamespace)
    methods := unpin storeId chainNamespace db.methods }

/-- The foreign key of a pin: the wallet exists and is of the method's family. -/
def pinAllowed (walletId : Option Uuid) (chainId : ChainId) (db : AccountDb) :
    Except RepositoryError Unit :=
  match walletId with
  | none => .ok ()
  | some id =>
    if db.wallets.rows.any fun wallet => wallet.id = id ∧ wallet.chainNamespace = chainId.chainNamespace then
      .ok ()
    else .error (refused "violates foreign key constraint \"store_payment_methods_wallet_family_fkey\"")

def modifyMethod (id : Uuid) (change : StorePaymentMethod → StorePaymentMethod)
    (keeps : ∀ method, (change method).id = method.id) (methods : Table StorePaymentMethod.id) :
    Table StorePaymentMethod.id :=
  methods.update (fun method => if method.id = id then change method else method) fun method => by
    split <;> simp [keeps]

/-- The write of `create_payment_method`: insert a method, or configure the one that is there again. -/
def insertPaymentMethod (id storeId : Uuid) (chainId : ChainId) (tokenAddress : Option Text)
    (assetSymbol : Text) (decimals : Nat) (walletId : Option Uuid) (db : AccountDb) :
    Except RepositoryError (Uuid × AccountDb) := do
  let tokenAddress ← nullable (varChar 42) tokenAddress
  let assetSymbol ← varChar 32 assetSymbol
  let _ ← caip2Namespace chainId.chainNamespace
  pinAllowed walletId chainId db
  let _ ← (findStore storeId db).mapError fun _ =>
    refused "violates foreign key constraint \"store_payment_methods_store_id_fkey\""
  match db.methods.rows.find? fun method =>
      method.storeId = storeId ∧ method.chainId = chainId ∧ method.tokenAddress = tokenAddress with
  | some existing =>
    let configured := modifyMethod existing.id
      (fun method => { method with walletId, assetSymbol, decimals, enabled := true }) (fun _ => rfl)
      db.methods
    .ok (existing.id, { db with methods := configured })
  | none =>
    if fresh : id ∉ db.methods.keys then
      let inserted := db.methods.insert
        ⟨id, storeId, chainId, tokenAddress, assetSymbol, decimals, walletId, true⟩ fresh
      .ok (id, { db with methods := inserted })
    else .error (refused "duplicate key value violates unique constraint \"store_payment_methods_pkey\"")

/-- The write of `update_payment_method`; a method deleted in the meantime is not found. -/
def updatePaymentMethod (id : Uuid) (enabled : Option Bool) (walletId : Option Uuid) (db : AccountDb) :
    Except RepositoryError AccountDb :=
  match db.methods.find? id with
  | some method => do
    pinAllowed walletId method.chainId db
    let updated := modifyMethod id (fun method => { method with
      enabled := enabled.getD method.enabled
      walletId := walletId.or method.walletId }) (fun _ => rfl) db.methods
    .ok { db with methods := updated }
  | none => .error (.notFound "payment method not found")

def deletePaymentMethod (id : Uuid) (db : AccountDb) : Except RepositoryError AccountDb :=
  if id ∈ db.methods.keys then .ok { db with methods := db.methods.filter fun method => method.id ≠ id }
  else .error (.notFound "payment method not found")

/-! ## Rotation -/

/-- The methods of a store in a family with the wallets they derive from, apart from the new one. -/
def methodsToRotate (storeId : Uuid) (only : Option (List Uuid)) (chainNamespace : Text)
    (newWalletId : Uuid) (db : AccountDb) : List (StorePaymentMethod × Wallet) :=
  let inScope := db.methods.rows.filter fun method =>
    method.storeId = storeId ∧ method.chainId.chainNamespace = chainNamespace ∧
      (only.all fun ids => ids.contains method.id)
  (inScope.insertionSort fun a b => a.id ≤ b.id).filterMap fun method => do
    let wallet ← db.resolvedWallet method
    if wallet.id ≠ newWalletId then some (method, wallet) else none

/-- The shared body of the rotations: pins are moved, and inheriting methods get an override. -/
def rotateMethods (id storeId : Uuid) (only : Option (List Uuid)) (chainNamespace newXpub : Text)
    (db : AccountDb) : Except RepositoryError (List WalletRotation × AccountDb) := do
  let store ← findStore storeId db
  rejectIfAnotherAccountHolds store.ownerId newXpub db
  let (newWallet, db) ← upsertWallet id store.ownerId chainNamespace newXpub none db
  let methods := methodsToRotate storeId only chainNamespace newWallet.id db
  let pinned := (methods.filter fun entry => entry.1.walletId.isSome).map fun entry => entry.1.id
  let repointed := db.methods.update (fun method =>
    if pinned.contains method.id then { method with walletId := some newWallet.id } else method)
    fun method => by split <;> rfl
  let needsOverride := methods.any fun entry => entry.1.walletId.isNone
  let overrides :=
    if needsOverride then db.storeWallets.put ⟨storeId, chainNamespace, newWallet.id⟩ else db.storeWallets
  .ok (methods.map fun entry =>
      ⟨storeId, entry.2.xpub.val, newXpub, entry.1.id, entry.2.derivationIndex⟩,
    { db with methods := repointed, storeWallets := overrides })

def rotateStoreXpub (id storeId : Uuid) (chainNamespace newXpub : Text) (db : AccountDb) :
    Except RepositoryError (List WalletRotation × AccountDb) :=
  rotateMethods id storeId none chainNamespace newXpub db

/-! ## Allocation -/

/-- The largest value of an `INTEGER` column. -/
def maxInteger : Nat := 2 ^ 31 - 1

/-- Advance the counter of the wallet a method resolves to, and hand out the index it was at. -/
def allocateDerivation (id : Uuid) (db : AccountDb) :
    Except RepositoryError (DerivationAllocation × AccountDb) :=
  match (db.methods.find? id).bind db.resolvedWallet with
  | some wallet =>
    if wallet.derivationIndex < maxInteger then
      .ok (⟨wallet.id, wallet.chainNamespace, wallet.xpub.val, wallet.derivationIndex⟩,
        { db with wallets := db.wallets.advance wallet.id })
    else .error (refused "integer out of range")
  | none => .error (.notFound "payment method has no wallet in its chain family to derive from")

/-! ## What the transactions do to the counters -/

/-- The place of a wallet in the sequence of its key's addresses. -/
def Wallet.counter (wallet : Wallet) : Issuance.Slot Text Text :=
  ⟨wallet.chainNamespace, wallet.xpub.val, wallet.derivationIndex⟩

/-- The place that was handed out. -/
def DerivationAllocation.drawn (allocation : DerivationAllocation) : Issuance.Slot Text Text :=
  ⟨allocation.chainNamespace, allocation.xpub, allocation.index⟩

def AccountDb.counters (db : AccountDb) : List (Issuance.Slot Text Text) :=
  db.wallets.rows.map Wallet.counter

/-- No row of the account holds the key in the family. -/
def Unheld (userId : Uuid) (chainNamespace xpub : Text) (db : AccountDb) : Prop :=
  ∀ wallet ∈ db.wallets.rows,
    ¬ (wallet.userId = userId ∧ wallet.chainNamespace = chainNamespace ∧ wallet.xpub.val = xpub)

/-- A registration finds its key held, or adds a counter at zero for it. -/
def Registered (userId : Uuid) (chainNamespace xpub : Text) (db db' : AccountDb) : Prop :=
  db'.counters = db.counters ∨
    Unheld userId chainNamespace xpub db ∧ db'.counters = db.counters ++ [⟨chainNamespace, xpub, 0⟩]

theorem counters_map {rows : List Wallet} {change : Wallet → Wallet}
    (keeps : ∀ wallet, (change wallet).counter = wallet.counter) :
    (rows.map change).map Wallet.counter = rows.map Wallet.counter := by
  rw [List.map_map]
  exact List.map_congr_left fun wallet _ => keeps wallet

theorem caip2Namespace_ok {text stored : Text} (done : caip2Namespace text = .ok stored) :
    stored = text := by
  unfold caip2Namespace at done
  split at done
  · cases done
    rfl
  · cases done

variable {db db' : AccountDb}

theorem upsertWallet_ok {name : Option Text}
    (done : upsertWallet id userId chainNamespace xpub name db = .ok (wallet, db')) :
    Registered userId chainNamespace xpub db db' := by
  obtain ⟨stored, isNamespace, keyed⟩ := bind_eq_ok.mp done
  obtain ⟨key, isKey, named⟩ := bind_eq_ok.mp keyed
  obtain ⟨label, _, written⟩ := bind_eq_ok.mp named
  obtain rfl := caip2Namespace_ok isNamespace
  obtain rfl := varChar_ok.mp isKey
  split at written
  · cases written
    refine .inl ?_
    change (List.map _ db.wallets.rows).map Wallet.counter = _
    refine counters_map fun wallet => ?_
    split <;> rfl
  next missing =>
    split at written
    · cases written
      refine .inr ⟨?_, ?_⟩
      · rintro wallet mem ⟨sameUser, sameFamily, sameKey⟩
        refine findHolder_none missing wallet mem ?_
        simp [Wallet.holder, sameUser, sameFamily, Subtype.ext sameKey]
      · change (db.wallets.rows ++ [_]).map Wallet.counter = _
        rw [List.map_append]
        rfl
    · cases written

theorem createWallet_ok {name : Option Text}
    (done : createWallet id userId chainNamespace xpub name db = .ok (wallet, db')) :
    Registered userId chainNamespace xpub db db' := by
  obtain ⟨_, _, done⟩ := bind_eq_ok.mp done
  exact upsertWallet_ok done

theorem findStore_ok {store : Store} (done : findStore storeId db = .ok store) :
    db.stores.find? storeId = some store := by
  unfold findStore at done
  split at done
  next found =>
    cases done
    exact found
  · cases done

theorem walletForStoreXpub_ok
    (done : walletForStoreXpub id storeId chainNamespace xpub db = .ok (walletId, db')) :
    ∃ store, db.stores.find? storeId = some store ∧
      Registered store.ownerId chainNamespace xpub db db' := by
  obtain ⟨store, found, done⟩ := bind_eq_ok.mp done
  obtain ⟨_, _, done⟩ := bind_eq_ok.mp done
  obtain ⟨⟨wallet, written⟩, upserted, done⟩ := bind_eq_ok.mp done
  cases done
  exact ⟨store, findStore_ok found, upsertWallet_ok upserted⟩

theorem rotateMethods_ok {only : Option (List Uuid)} {chainNamespace newXpub : Text}
    {rotations : List WalletRotation}
    (done : rotateMethods id storeId only chainNamespace newXpub db = .ok (rotations, db')) :
    ∃ store, db.stores.find? storeId = some store ∧
      Registered store.ownerId chainNamespace newXpub db db' := by
  obtain ⟨store, found, done⟩ := bind_eq_ok.mp done
  obtain ⟨_, _, done⟩ := bind_eq_ok.mp done
  obtain ⟨⟨wallet, written⟩, upserted, done⟩ := bind_eq_ok.mp done
  cases done
  have registered : Registered store.ownerId _ _ db written := upsertWallet_ok upserted
  exact ⟨store, findStore_ok found, registered⟩

theorem setPrimaryWallet_ok (done : setPrimaryWallet userId walletId db = .ok (wallet, db')) :
    db'.counters = db.counters := by
  unfold setPrimaryWallet at done
  split at done
  · split at done
    · cases done
      change (List.map _ db.wallets.rows).map Wallet.counter = _
      refine counters_map fun wallet => ?_
      unfold Wallets.promote Wallets.demote
      split <;> split <;> rfl
    · cases done
  · cases done

theorem deleteWallet_ok (done : deleteWallet walletId db = .ok db') : db'.counters.Sublist db.counters := by
  unfold deleteWallet at done
  split at done
  · split at done
    · cases done
    · cases done
      exact List.filter_sublist.map Wallet.counter
  · cases done

theorem setStoreWallet_ok (done : setStoreWallet storeId walletId db = .ok db') :
    db'.counters = db.counters := by
  obtain ⟨store, _, done⟩ := bind_eq_ok.mp done
  split at done <;> cases done
  rfl

theorem clearStoreWallet_ok {chainNamespace : Text}
    (done : clearStoreWallet storeId chainNamespace db = .ok db') : db'.counters = db.counters := by
  obtain ⟨store, _, done⟩ := bind_eq_ok.mp done
  cases done
  rfl

theorem insertPaymentMethod_ok {chainId : ChainId} {tokenAddress : Option Text} {assetSymbol : Text}
    {decimals : Nat} {walletId : Option Uuid} {written : Uuid}
    (done : insertPaymentMethod id storeId chainId tokenAddress assetSymbol decimals walletId db =
      .ok (written, db')) : db'.counters = db.counters := by
  obtain ⟨token, _, done⟩ := bind_eq_ok.mp done
  obtain ⟨symbol, _, done⟩ := bind_eq_ok.mp done
  obtain ⟨_, _, done⟩ := bind_eq_ok.mp done
  obtain ⟨_, _, done⟩ := bind_eq_ok.mp done
  obtain ⟨_, _, done⟩ := bind_eq_ok.mp done
  split at done
  · cases done
    rfl
  · split at done <;> cases done
    rfl

theorem updatePaymentMethod_ok {enabled : Option Bool} {walletId : Option Uuid}
    (done : updatePaymentMethod id enabled walletId db = .ok db') : db'.counters = db.counters := by
  unfold updatePaymentMethod at done
  split at done
  · obtain ⟨_, _, done⟩ := bind_eq_ok.mp done
    cases done
    rfl
  · cases done

theorem deletePaymentMethod_ok (done : deletePaymentMethod id db = .ok db') : db'.counters = db.counters := by
  unfold deletePaymentMethod at done
  split at done <;> cases done
  rfl

theorem resolvedWallet_mem {method : StorePaymentMethod} (found : db.resolvedWallet method = some wallet) :
    wallet ∈ db.wallets.rows := by
  simp only [AccountDb.resolvedWallet, Option.bind_eq_bind, Option.bind_eq_some_iff] at found
  obtain ⟨store, _, walletId, _, row, isRow, isWallet⟩ := found
  split at isWallet
  · cases isWallet
    exact (Table.find?_eq_some.mp isRow).1
  · cases isWallet

/-- An allocation hands out the place one counter is at and moves that counter on. -/
theorem allocateDerivation_ok {allocation : DerivationAllocation}
    (done : allocateDerivation id db = .ok (allocation, db')) :
    ∃ before after, db.counters = before ++ allocation.drawn :: after ∧
      db'.counters = before ++ allocation.drawn.next :: after := by
  unfold allocateDerivation at done
  split at done
  next wallet found =>
    split at done
    · cases done
      obtain ⟨method, _, resolved⟩ := Option.bind_eq_some_iff.mp found
      obtain ⟨front, back, isRows⟩ := List.append_of_mem (resolvedWallet_mem resolved)
      -- the ids differ, so the other rows stay as they are
      have once : (db.wallets.rows.map Wallet.id).Nodup := db.wallets.table.nodup
      rw [isRows, List.map_append, List.map_cons, List.nodup_middle] at once
      have others : ∀ other ∈ front ++ back, other.id ≠ wallet.id := by
        intro other mem same
        refine (List.nodup_cons.mp once).1 ?_
        rw [← same, ← List.map_append]
        exact List.mem_map_of_mem mem
      refine ⟨front.map Wallet.counter, back.map Wallet.counter, ?_, ?_⟩
      · rw [AccountDb.counters, isRows, List.map_append, List.map_cons]
        rfl
      change (db.wallets.rows.map fun row => if row.id = wallet.id then _ else row).map
        Wallet.counter = _
      rw [isRows, List.map_append, List.map_cons, List.map_append, List.map_cons, if_pos rfl]
      have kept : ∀ rows : List Wallet, (∀ row ∈ rows, row.id ≠ wallet.id) →
          rows.map (fun row => if row.id = wallet.id then
            { row with derivationIndex := row.derivationIndex + 1 } else row) = rows := by
        intro rows differ
        rw [List.map_congr_left fun row mem => if_neg (differ row mem), List.map_id']
      rw [kept front fun row mem => others row (List.mem_append_left _ mem),
        kept back fun row mem => others row (List.mem_append_right _ mem)]
      rfl
    · cases done
  · cases done

end EthPayServer.Data
