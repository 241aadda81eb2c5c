import EthPayServer.Data.Wallet
import EthPayServer.Lib.Transition

/-!
# Deposit addresses

Accounts register keys, point stores and payment methods at them and allocate
addresses, one transaction after the other.  A request that takes more than one
transaction may be overtaken by others in between: what its first transaction
told it is remembered here, and its second one may come at any later time.

An address is given out twice only if a key gets a second counter: by being
deleted after it issued addresses and added again, or by being added under
another encoding.
-/

namespace EthPayServer.Pipeline

open Lib Data
open Evm (Uuid Bip32 addressAt addressAt_injective validateXpub)

structure Accounts where
  db : AccountDb
  /-- what `wallet_for_store_xpub` answered so far: the store, the family and the wallet -/
  resolved : List (Uuid × Text × Uuid)
  /-- the stores and families that were found to resolve to a wallet -/
  checked : List (Uuid × Text)
  /-- every successful allocation, oldest first -/
  issued : List DerivationAllocation

/-- One transaction; the first id of one that may insert a row is the row's generated id. -/
inductive AccountAction where
  | createWallet (id userId : Uuid) (chainNamespace xpub : Text) (name : Option Text)
  /-- the first transaction of configuring a payment method with a key -/
  | walletForStoreXpub (id storeId : Uuid) (chainNamespace xpub : Text)
  /-- the first transaction of creating a payment method without one -/
  | storeResolvesToAWallet (storeId : Uuid) (chainNamespace : Text)
  | insertPaymentMethod (id storeId : Uuid) (chainId : ChainId) (tokenAddress : Option Text)
      (assetSymbol : Text) (decimals : Nat) (walletId : Option Uuid)
  | updatePaymentMethod (id : Uuid) (enabled : Option Bool) (walletId : Option Uuid)
  | deletePaymentMethod (id : Uuid)
  | setPrimaryWallet (userId walletId : Uuid)
  | deleteWallet (walletId : Uuid)
  | setStoreWallet (storeId walletId : Uuid)
  | clearStoreWallet (storeId : Uuid) (chainNamespace : Text)
  | rotateMethods (id storeId : Uuid) (only : Option (List Uuid)) (chainNamespace newXpub : Text)
  | allocateDerivation (id : Uuid)

namespace Accounts

/-- Keys were validated, and a wallet id comes from an answer for the method's store and family. -/
def Valid (lib : Bip32) (accounts : Accounts) : AccountAction → Prop
  | .createWallet _ _ _ xpub _ => validateXpub lib xpub = true
  | .walletForStoreXpub _ _ _ xpub => validateXpub lib xpub = true
  | .rotateMethods _ _ _ _ newXpub => validateXpub lib newXpub = true
  | .insertPaymentMethod _ storeId chainId _ _ _ walletId =>
    match walletId with
    | some walletId => (storeId, chainId.chainNamespace, walletId) ∈ accounts.resolved
    | none => (storeId, chainId.chainNamespace) ∈ accounts.checked
  | .updatePaymentMethod id _ walletId => ∀ known ∈ walletId, ∀ method ∈ accounts.db.methods.rows,
    method.id = id → (method.storeId, method.chainId.chainNamespace, known) ∈ accounts.resolved
  | _ => True

instance (lib : Bip32) (accounts : Accounts) : DecidablePred (accounts.Valid lib)
  | .createWallet _ _ _ xpub _ => inferInstanceAs (Decidable (validateXpub lib xpub = true))
  | .walletForStoreXpub _ _ _ xpub => inferInstanceAs (Decidable (validateXpub lib xpub = true))
  | .rotateMethods _ _ _ _ newXpub => inferInstanceAs (Decidable (validateXpub lib newXpub = true))
  | .insertPaymentMethod _ storeId chainId _ _ _ (some walletId) =>
    inferInstanceAs (Decidable ((storeId, chainId.chainNamespace, walletId) ∈ accounts.resolved))
  | .insertPaymentMethod _ storeId chainId _ _ _ none =>
    inferInstanceAs (Decidable ((storeId, chainId.chainNamespace) ∈ accounts.checked))
  | .updatePaymentMethod id _ walletId =>
    inferInstanceAs (Decidable (∀ known ∈ walletId, ∀ method ∈ accounts.db.methods.rows,
      method.id = id → (method.storeId, method.chainId.chainNamespace, known) ∈ accounts.resolved))
  | .storeResolvesToAWallet .. | .deletePaymentMethod _ | .setPrimaryWallet .. | .deleteWallet _
  | .setStoreWallet .. | .clearStoreWallet .. | .allocateDerivation _ => .isTrue trivial

/-- A transaction that failed leaves everything as it was. -/
def commit {α : Type} (accounts : Accounts) (result : Except RepositoryError α)
    (next : α → Accounts) : Accounts :=
  match result with
  | .ok written => next written
  | .error _ => accounts

def perform (accounts : Accounts) : AccountAction → Accounts
  | .createWallet id userId chainNamespace xpub name =>
    accounts.commit (createWallet id userId chainNamespace xpub name accounts.db)
      fun (_, db) => { accounts with db }
  | .walletForStoreXpub id storeId chainNamespace xpub =>
    accounts.commit (walletForStoreXpub id storeId chainNamespace xpub accounts.db)
      fun (walletId, db) => { accounts with
        db, resolved := accounts.resolved ++ [(storeId, chainNamespace, walletId)] }
  | .storeResolvesToAWallet storeId chainNamespace =>
    if storeResolvesToAWallet storeId chainNamespace accounts.db then
      { accounts with checked := accounts.checked ++ [(storeId, chainNamespace)] }
    else accounts
  | .insertPaymentMethod id storeId chainId tokenAddress assetSymbol decimals walletId =>
    accounts.commit
      (insertPaymentMethod id storeId chainId tokenAddress assetSymbol decimals walletId accounts.db)
      fun (_, db) => { accounts with db }
  | .updatePaymentMethod id enabled walletId =>
    accounts.commit (updatePaymentMethod id enabled walletId accounts.db) fun db => { accounts with db }
  | .deletePaymentMethod id =>
    accounts.commit (deletePaymentMethod id accounts.db) fun db => { accounts with db }
  | .setPrimaryWallet userId walletId =>
    accounts.commit (setPrimaryWallet userId walletId accounts.db) fun (_, db) => { accounts with db }
  | .deleteWallet walletId =>
    accounts.commit (deleteWallet walletId accounts.db) fun db => { accounts with db }
  | .setStoreWallet storeId walletId =>
    accounts.commit (setStoreWallet storeId walletId accounts.db) fun db => { accounts with db }
  | .clearStoreWallet storeId chainNamespace =>
    accounts.commit (clearStoreWallet storeId chainNamespace accounts.db) fun db => { accounts with db }
  | .rotateMethods id storeId only chainNamespace newXpub =>
    accounts.commit (rotateMethods id storeId only chainNamespace newXpub accounts.db)
      fun (_, db) => { accounts with db }
  | .allocateDerivation id =>
    accounts.commit (allocateDerivation id accounts.db)
      fun (allocation, db) => { accounts with db, issued := accounts.issued ++ [allocation] }

structure IsInitial (accounts : Accounts) : Prop where
  wallets : accounts.db.wallets = Wallets.empty
  storeWallets : accounts.db.storeWallets = Table.empty
  methods : accounts.db.methods = Table.empty
  resolved : accounts.resolved = []
  checked : accounts.checked = []
  issued : accounts.issued = []

/-- No two allocations of one family gave the same address. -/
def NeverShared (lib : Bip32) (accounts : Accounts) : Prop :=
  accounts.issued.Pairwise fun allocation other =>
    allocation.chainNamespace = other.chainNamespace → ∀ address,
      addressAt lib allocation.chainNamespace allocation.xpub allocation.index = some address →
      addressAt lib other.chainNamespace other.xpub other.index ≠ some address

end Accounts

/-- The account, family and key an action registers, if it registers one. -/
def AccountAction.registers (db : AccountDb) : AccountAction → Option (Uuid × Text × Text)
  | .createWallet _ userId chainNamespace xpub _ => some (userId, chainNamespace, xpub)
  | .walletForStoreXpub _ storeId chainNamespace xpub =>
    (db.stores.find? storeId).map fun store => (store.ownerId, chainNamespace, xpub)
  | .rotateMethods _ storeId _ chainNamespace newXpub =>
    (db.stores.find? storeId).map fun store => (store.ownerId, chainNamespace, newXpub)
  | _ => none

/--
A key for which the account has no row in the family derives no address that
was issued in the family before, and none that the key of another row of the
family derives.
-/
def FreshKeys (lib : Bip32) (accounts : Accounts) (action : AccountAction) : Prop :=
  ∀ userId chainNamespace xpub, action.registers accounts.db = some (userId, chainNamespace, xpub) →
    Unheld userId chainNamespace xpub accounts.db →
    (∀ wallet ∈ accounts.db.wallets.rows, wallet.chainNamespace = chainNamespace →
      ¬ Issuance.Meet (addressAt lib) chainNamespace wallet.xpub.val xpub) ∧
    ∀ allocation ∈ accounts.issued, allocation.chainNamespace = chainNamespace → ∀ i address,
      addressAt lib chainNamespace allocation.xpub allocation.index = some address →
      addressAt lib chainNamespace xpub i ≠ some address

def accounts (lib : Bip32) : System Accounts AccountAction where
  initial := Accounts.IsInitial
  step before action after := before.Valid lib action ∧ after = before.perform action

/-! ## The counters and what they drew -/

variable {after : Accounts} {action : AccountAction} {before : Accounts}

namespace Accounts

/-- The counters draw from their keys' addresses, and everything issued was drawn. -/
def Sound (lib : Bip32) (accounts : Accounts) : Prop :=
  Issuance.Sound (addressAt lib) accounts.db.counters
    (accounts.issued.map DerivationAllocation.drawn)

variable {lib : Bip32}

theorem Sound.of_initial (start : before.IsInitial) : before.Sound lib := by
  have noCounters : before.db.counters = [] := by
    rw [AccountDb.counters, start.wallets]
    rfl
  rw [Sound, noCounters, start.issued]
  exact Issuance.Sound.nil

theorem Sound.commit {α : Type} (sound : before.Sound lib) {result : Except RepositoryError α}
    {next : α → Accounts} (keeps : ∀ written, result = .ok written → (next written).Sound lib) :
    (before.commit result next).Sound lib := by
  unfold Accounts.commit
  split
  next written => exact keeps written rfl
  · exact sound

/-- Writes that leave the counters alone. -/
theorem Sound.same (sound : before.Sound lib) (counters : after.db.counters = before.db.counters)
    (issued : after.issued = before.issued) : after.Sound lib := by
  rwa [Sound, counters, issued]

/-- A registration keeps the counters sound if the key is fresh. -/
theorem Sound.registered (sound : before.Sound lib) (fresh : FreshKeys lib before action) {userId : Uuid}
    {chainNamespace xpub : Text} (registers : action.registers before.db = some (userId, chainNamespace, xpub))
    (registered : Registered userId chainNamespace xpub before.db after.db)
    (issued : after.issued = before.issued) : after.Sound lib := by
  rcases registered with same | ⟨unheld, added⟩
  · exact sound.same same issued
  obtain ⟨unmet, undrawn⟩ := fresh userId chainNamespace xpub registers unheld
  rw [Sound, added, issued]
  refine Issuance.Sound.add sound ?_ ?_
  · intro counter mem sameSpace
    obtain ⟨wallet, memWallet, rfl⟩ := List.mem_map.mp mem
    have sameFamily : wallet.chainNamespace = chainNamespace := sameSpace
    have apart := unmet wallet memWallet sameFamily
    rw [← sameFamily] at apart ⊢
    exact apart
  intro slot mem sameSpace i address drew
  obtain ⟨allocation, memAllocation, rfl⟩ := List.mem_map.mp mem
  have sameFamily : allocation.chainNamespace = chainNamespace := sameSpace
  refine undrawn allocation memAllocation sameFamily i address ?_
  rw [← sameFamily]
  exact drew

theorem Sound.perform (injective : lib.Injective) (sound : before.Sound lib)
    (fresh : FreshKeys lib before action) : (before.perform action).Sound lib := by
  cases action with
  | createWallet id userId chainNamespace xpub name =>
    refine sound.commit ?_
    rintro ⟨wallet, db⟩ done
    exact sound.registered fresh rfl (createWallet_ok done) rfl
  | walletForStoreXpub id storeId chainNamespace xpub =>
    refine sound.commit ?_
    rintro ⟨walletId, db⟩ done
    obtain ⟨store, found, registered⟩ := walletForStoreXpub_ok done
    exact sound.registered fresh (by rw [AccountAction.registers, found]; rfl) registered rfl
  | storeResolvesToAWallet storeId chainNamespace =>
    rw [Accounts.perform]
    split
    · exact sound.same rfl rfl
    · exact sound
  | insertPaymentMethod id storeId chainId tokenAddress assetSymbol decimals walletId =>
    refine sound.commit ?_
    rintro ⟨written, db⟩ done
    exact sound.same (insertPaymentMethod_ok done) rfl
  | updatePaymentMethod id enabled walletId =>
    exact sound.commit fun db done => sound.same (updatePaymentMethod_ok done) rfl
  | deletePaymentMethod id =>
    exact sound.commit fun db done => sound.same (deletePaymentMethod_ok done) rfl
  | setPrimaryWallet userId walletId =>
    refine sound.commit ?_
    rintro ⟨wallet, db⟩ done
    exact sound.same (setPrimaryWallet_ok done) rfl
  | deleteWallet walletId =>
    exact sound.commit fun db done => Issuance.Sound.sublist sound (deleteWallet_ok done)
  | setStoreWallet storeId walletId =>
    exact sound.commit fun db done => sound.same (setStoreWallet_ok done) rfl
  | clearStoreWallet storeId chainNamespace =>
    exact sound.commit fun db done => sound.same (clearStoreWallet_ok done) rfl
  | rotateMethods id storeId only chainNamespace newXpub =>
    refine sound.commit ?_
    rintro ⟨rotations, db⟩ done
    obtain ⟨store, found, registered⟩ := rotateMethods_ok done
    exact sound.registered fresh (by rw [AccountAction.registers, found]; rfl) registered rfl
  | allocateDerivation id =>
    refine sound.commit ?_
    rintro ⟨allocation, db⟩ done
    obtain ⟨front, back, isBefore, isAfter⟩ := allocateDerivation_ok done
    unfold Sound at sound ⊢
    rw [isBefore] at sound
    rw [isAfter, List.map_append]
    exact Issuance.Sound.draw sound (addressAt_injective injective)

end Accounts

/--
If the addresses of one key differ, no address is given out twice in a family,
in every run in which every key that gets a new row is fresh.
-/
theorem addresses_never_shared (lib : Bip32) (injective : lib.Injective) {after : Accounts}
    (reached : ((accounts lib).restrict (FreshKeys lib)).Reachable after) : after.NeverShared lib := by
  have sound : after.Sound lib := by
    refine reached.invariant (I := Accounts.Sound lib) Accounts.Sound.of_initial ?_
    rintro before action after _ sound ⟨⟨_, rfl⟩, fresh⟩
    exact sound.perform injective fresh
  have distinct := List.pairwise_map.mp sound.distinct
  refine distinct.imp fun differ sameFamily address first second => differ ?_
  exact ⟨sameFamily, address, first, second⟩

/-! ## A key that gets a second counter -/

/-- A library for which the last character of a text is the key and the rest is its encoding. -/
def lastCharacter : Bip32 where
  Key := Char × Nat
  xpubFromBase58 text :=
    match text.getLast? with
    | some key => .ok (key, 0)
    | none => .error "no payload"
  deriveChild key index :=
    if index < 2 ^ 31 then .ok (key.1, index) else .error "hardened child of a public key"
  publicKeyToAddress key := BitVec.ofNat 160 (key.1.toNat * 2 ^ 31 + key.2)

theorem lastCharacter_child {key child : Char × Nat} {index : Nat}
    (derives : lastCharacter.deriveChild key index = .ok child) :
    child = (key.1, index) ∧ index < 2 ^ 31 := by
  by_cases bounded : index < 2 ^ 31
  · have isChild : lastCharacter.deriveChild key index = .ok (key.1, index) := if_pos bounded
    rw [isChild] at derives
    cases derives
    exact ⟨rfl, bounded⟩
  · have failed : lastCharacter.deriveChild key index = .error "hardened child of a public key" :=
      if_neg bounded
    rw [failed] at derives
    cases derives

/-- Addresses tell both the key and the index. -/
theorem lastCharacter_address {key key' : Char} {i j : Nat} (low : i < 2 ^ 31) (low' : j < 2 ^ 31)
    (same : lastCharacter.publicKeyToAddress (key, i) = lastCharacter.publicKeyToAddress (key', j)) :
    key = key' ∧ i = j := by
  have numbers := congrArg BitVec.toNat same
  change (BitVec.ofNat 160 (key.toNat * 2 ^ 31 + i)).toNat =
    (BitVec.ofNat 160 (key'.toNat * 2 ^ 31 + j)).toNat at numbers
  have small : ∀ c : Char, c.toNat < 2 ^ 32 := fun c => c.val.toNat_lt
  have bound := small key
  have bound' := small key'
  rw [BitVec.toNat_ofNat, BitVec.toNat_ofNat, Nat.mod_eq_of_lt (by omega),
    Nat.mod_eq_of_lt (by omega)] at numbers
  have sameKey : key.toNat = key'.toNat := by omega
  exact ⟨Char.toNat_inj.mp sameKey, by omega⟩

theorem lastCharacter_injective : lastCharacter.Injective := by
  intro key i j child child' derives derives' same
  obtain ⟨rfl, low⟩ := lastCharacter_child derives
  obtain ⟨rfl, low'⟩ := lastCharacter_child derives'
  exact (lastCharacter_address low low' same).2

/-- Texts with an address in common stand for one key. -/
theorem lastCharacter_unmet {chainNamespace xpub xpub' : Text} {i j : Nat} {address : Evm.Address}
    (derives : addressAt lastCharacter chainNamespace xpub i = some address)
    (derives' : addressAt lastCharacter chainNamespace xpub' j = some address) :
    lastCharacter.xpubFromBase58 xpub = lastCharacter.xpubFromBase58 xpub' := by
  have isKey : ∀ {text key}, lastCharacter.xpubFromBase58 text = .ok key → key = (key.1, 0) := by
    intro text key decoded
    change (match text.getLast? with | some key => _ | none => _) = _ at decoded
    split at decoded <;> cases decoded
    rfl
  obtain ⟨key, external, derived, decoded, isExternal, isDerived, isAddress⟩ :=
    Evm.addressAt_eq_some derives
  obtain ⟨key', external', derived', decoded', isExternal', isDerived', isAddress'⟩ :=
    Evm.addressAt_eq_some derives'
  obtain ⟨rfl, -⟩ := lastCharacter_child isExternal
  obtain ⟨rfl, -⟩ := lastCharacter_child isExternal'
  obtain ⟨rfl, low⟩ := lastCharacter_child isDerived
  obtain ⟨rfl, low'⟩ := lastCharacter_child isDerived'
  have sameKey := (lastCharacter_address low low' (isAddress.trans isAddress'.symm)).1
  rw [decoded, decoded', isKey decoded, isKey decoded', sameKey]

def firstXpub : Text := ['x', 'p', 'u', 'b', '-', 'k', 'e', 'y', '-', '1']

/-- The same key under another version prefix. -/
def firstYpub : Text := ['y', 'p', 'u', 'b', '-', 'k', 'e', 'y', '-', '1']

def secondXpub : Text := ['x', 'p', 'u', 'b', '-', 'k', 'e', 'y', '-', '2']

def newAccount : Accounts where
  db := ⟨Table.empty.insert ⟨1, 10⟩ (by decide), Wallets.empty, Table.empty, Table.empty⟩
  resolved := []
  checked := []
  issued := []

/-- The account registers a key, and its store takes ETH without a key of its own. -/
def configuredAccount : Accounts :=
  ((newAccount.perform (.createWallet 1 10 Evm.ChainFamily.eip155 firstXpub none)).perform
    (.storeResolvesToAWallet 1 Evm.ChainFamily.eip155)).perform
    (.insertPaymentMethod 2 1 (.evm 1) none ['E', 'T', 'H'] 18 none)

/-- A first invoice gets the key's first address. -/
def invoicedAccount : Accounts := configuredAccount.perform (.allocateDerivation 2)

/-- The store moves to another key, and the next invoice gets that key's first address. -/
def rotatedAccount : Accounts :=
  (invoicedAccount.perform (.rotateMethods 3 1 none Evm.ChainFamily.eip155 secondXpub)).perform
    (.allocateDerivation 2)

def readdedAccount : Accounts :=
  ((invoicedAccount.perform (.deleteWallet 1)).perform
    (.createWallet 3 10 Evm.ChainFamily.eip155 firstXpub none)).perform (.allocateDerivation 2)

/-- The payment method gets the key under its other version prefix. -/
def reencodedAccount : Accounts :=
  ((invoicedAccount.perform (.walletForStoreXpub 3 1 Evm.ChainFamily.eip155 firstYpub)).perform
    (.updatePaymentMethod 2 none (some 3))).perform (.allocateDerivation 2)

theorem Accounts.reachable_perform {lib : Bip32} (action : AccountAction)
    (reached : (accounts lib).Reachable before) (valid : before.Valid lib action) :
    (accounts lib).Reachable (before.perform action) :=
  reached.snoc ⟨valid, rfl⟩

theorem Accounts.reachable_perform_fresh {lib : Bip32} (action : AccountAction)
    (reached : ((accounts lib).restrict (FreshKeys lib)).Reachable before) (valid : before.Valid lib action)
    (fresh : FreshKeys lib before action) :
    ((accounts lib).restrict (FreshKeys lib)).Reachable (before.perform action) :=
  reached.snoc ⟨⟨valid, rfl⟩, fresh⟩

/-- Actions that register no key are free. -/
theorem FreshKeys.of_none {lib : Bip32} (registers : action.registers before.db = none) :
    FreshKeys lib before action := by
  intro userId chainNamespace xpub isSome
  rw [registers] at isSome
  cases isSome

theorem invoicedAccount_reachable :
    ((accounts lastCharacter).restrict (FreshKeys lastCharacter)).Reachable invoicedAccount := by
  have started : ((accounts lastCharacter).restrict (FreshKeys lastCharacter)).Reachable newAccount :=
    System.Reachable.of_initial ⟨rfl, rfl, rfl, rfl, rfl, rfl⟩
  have created := Accounts.reachable_perform_fresh
    (.createWallet 1 10 Evm.ChainFamily.eip155 firstXpub none) started (by decide)
    fun _ _ _ _ _ => ⟨by simp [newAccount, Wallets.empty, Wallets.rows], by simp [newAccount]⟩
  have checked := Accounts.reachable_perform_fresh
    (.storeResolvesToAWallet 1 Evm.ChainFamily.eip155) created (by decide) (.of_none rfl)
  have inserted := Accounts.reachable_perform_fresh
    (.insertPaymentMethod 2 1 (.evm 1) none ['E', 'T', 'H'] 18 none) checked (by decide +kernel)
    (.of_none rfl)
  exact Accounts.reachable_perform_fresh (.allocateDerivation 2) inserted (by decide) (.of_none rfl)

theorem invoicedAccount_wallets : invoicedAccount.db.wallets.rows =
    [⟨1, 10, Evm.ChainFamily.eip155, ⟨firstXpub, by decide⟩, 1, none, true⟩] := by
  decide +kernel

theorem invoicedAccount_issued : invoicedAccount.issued =
    [⟨1, Evm.ChainFamily.eip155, firstXpub, 0⟩] := by
  decide +kernel

theorem rotation_fresh : FreshKeys lastCharacter invoicedAccount
    (.rotateMethods 3 1 none Evm.ChainFamily.eip155 secondXpub) := by
  have differ : lastCharacter.xpubFromBase58 firstXpub ≠ lastCharacter.xpubFromBase58 secondXpub := by
    intro same
    cases same
  intro userId chainNamespace xpub registers _
  have isKey : xpub = secondXpub := by
    rw [AccountAction.registers] at registers
    obtain ⟨store, _, isTriple⟩ := Option.map_eq_some_iff.mp registers
    cases isTriple
    rfl
  subst isKey
  rw [invoicedAccount_wallets, invoicedAccount_issued]
  refine ⟨?_, ?_⟩
  · intro wallet mem _
    rw [List.mem_singleton.mp mem]
    rintro ⟨i, j, address, derives, derives'⟩
    exact differ (lastCharacter_unmet derives derives')
  · intro allocation mem _ i address derives derives'
    rw [List.mem_singleton.mp mem] at derives
    exact differ (lastCharacter_unmet derives derives')

theorem addresses_never_shared_rotated : rotatedAccount.issued =
    [⟨1, Evm.ChainFamily.eip155, firstXpub, 0⟩, ⟨3, Evm.ChainFamily.eip155, secondXpub, 0⟩] ∧
    rotatedAccount.NeverShared lastCharacter := by
  refine ⟨by decide +kernel, addresses_never_shared lastCharacter lastCharacter_injective ?_⟩
  have moved := Accounts.reachable_perform_fresh
    (.rotateMethods 3 1 none Evm.ChainFamily.eip155 secondXpub) invoicedAccount_reachable (by decide)
    rotation_fresh
  exact Accounts.reachable_perform_fresh (.allocateDerivation 2) moved (by decide) (.of_none rfl)

theorem readdedAccount_reachable : (accounts lastCharacter).Reachable readdedAccount := by
  have deleted := Accounts.reachable_perform (.deleteWallet 1)
    (System.Reachable.of_restrict invoicedAccount_reachable) (by decide)
  have added := Accounts.reachable_perform
    (.createWallet 3 10 Evm.ChainFamily.eip155 firstXpub none) deleted (by decide)
  exact Accounts.reachable_perform (.allocateDerivation 2) added (by decide)

theorem reencodedAccount_reachable : (accounts lastCharacter).Reachable reencodedAccount := by
  have resolved := Accounts.reachable_perform
    (.walletForStoreXpub 3 1 Evm.ChainFamily.eip155 firstYpub)
    (System.Reachable.of_restrict invoicedAccount_reachable) (by decide)
  have pinned := Accounts.reachable_perform
    (.updatePaymentMethod 2 none (some 3)) resolved (by decide +kernel)
  exact Accounts.reachable_perform (.allocateDerivation 2) pinned (by decide)

theorem Accounts.shared_of_pair {lib : Bip32} {first second : DerivationAllocation}
    (issued : after.issued = [first, second]) (sameFamily : first.chainNamespace = second.chainNamespace)
    {address : Evm.Address} (derives : addressAt lib first.chainNamespace first.xpub first.index = some address)
    (derives' : addressAt lib second.chainNamespace second.xpub second.index = some address) :
    ¬ after.NeverShared lib := by
  intro apart
  rw [NeverShared, issued, List.pairwise_pair] at apart
  exact apart sameFamily address derives derives'

/--
A key that was deleted and added again, and a key that was added under another
encoding, start at their first address again.
-/
theorem second_counter_shares : lastCharacter.Injective ∧
    ((accounts lastCharacter).Reachable readdedAccount ∧ ¬ readdedAccount.NeverShared lastCharacter) ∧
    ((accounts lastCharacter).Reachable reencodedAccount ∧ ¬ reencodedAccount.NeverShared lastCharacter) := by
  have readded : readdedAccount.issued =
      [⟨1, Evm.ChainFamily.eip155, firstXpub, 0⟩, ⟨3, Evm.ChainFamily.eip155, firstXpub, 0⟩] := by
    decide +kernel
  have reencoded : reencodedAccount.issued =
      [⟨1, Evm.ChainFamily.eip155, firstXpub, 0⟩, ⟨3, Evm.ChainFamily.eip155, firstYpub, 0⟩] := by
    decide +kernel
  exact ⟨lastCharacter_injective,
    ⟨readdedAccount_reachable, Accounts.shared_of_pair readded rfl rfl rfl⟩,
    ⟨reencodedAccount_reachable, Accounts.shared_of_pair reencoded rfl rfl rfl⟩⟩

end EthPayServer.Pipeline
