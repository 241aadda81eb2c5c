import EthPayServer.Data.Wallet

/-!
# Where payment methods derive from

A method resolves to its pin, else to its store's override, else to the owner's
primary.  The levels are shared: a store's override by its methods, a primary by
the stores of an account.  Rotating the key of a store moves the methods of that
store and no others; deleting a wallet is refused for a pin and an override, but
not for a primary that stores fall back on.
-/

namespace EthPayServer.Data

open Lib
open Evm (Uuid)

variable {id storeId walletId : Uuid} {wallet : Wallet} {db db' : AccountDb} {chainNamespace newXpub : Text}
  {method : StorePaymentMethod}

namespace AccountDb

theorem resolvedWallet_eq_some :
    db.resolvedWallet method = some wallet ↔ ∃ store, db.stores.find? method.storeId = some store ∧
      db.methodWallet store method = some wallet.id ∧ wallet ∈ db.wallets.rows ∧
      wallet.chainNamespace = method.chainId.chainNamespace := by
  simp only [resolvedWallet, Option.bind_eq_bind, Option.bind_eq_some_iff]
  constructor
  · rintro ⟨store, isStore, walletId, isId, row, isRow, kept⟩
    split at kept
    next family =>
      cases kept
      obtain ⟨mem, rfl⟩ := Table.find?_eq_some.mp isRow
      exact ⟨store, isStore, isId, mem, family⟩
    · cases kept
  · rintro ⟨store, isStore, isId, mem, family⟩
    exact ⟨store, isStore, wallet.id, isId, wallet, Table.find?_of_mem mem, if_pos family⟩

/-- What resolves to a wallet still does when wallets are added. -/
theorem resolvedWallet_of_added {added : List Wallet} (stores : db'.stores = db.stores)
    (overrides : db'.storeWallets = db.storeWallets) (rows : db'.wallets.rows = db.wallets.rows ++ added)
    (resolves : db.resolvedWallet method = some wallet) : db'.resolvedWallet method = some wallet := by
  obtain ⟨store, isStore, isId, mem, family⟩ := resolvedWallet_eq_some.mp resolves
  refine resolvedWallet_eq_some.mpr ⟨store, by rwa [stores], ?_, ?_, family⟩
  · unfold methodWallet storeWalletResolution at isId ⊢
    rw [overrides, rows, List.find?_append]
    simp only [Option.or_eq_some_iff, Option.map_or, Option.map_eq_none_iff] at isId ⊢
    rcases isId with pin | ⟨unpinned, override | ⟨noOverride, primary⟩⟩
    · exact .inl pin
    · exact .inr ⟨unpinned, .inl override⟩
    · exact .inr ⟨unpinned, .inr ⟨noOverride, .inl primary⟩⟩
  · rw [rows]
    exact List.mem_append_left added mem

end AccountDb

/-! ## Rotation -/

/-- The method is one of the store's in the family. -/
abbrev StorePaymentMethod.InScope (storeId : Uuid) (chainNamespace : Text) (method : StorePaymentMethod) : Prop :=
  method.storeId = storeId ∧ method.chainId.chainNamespace = chainNamespace

open StorePaymentMethod (InScope)

theorem upsertWallet_unnamed {userId : Uuid}
    (done : upsertWallet id userId chainNamespace newXpub none db = .ok (wallet, db')) :
    (db'.stores = db.stores ∧ db'.storeWallets = db.storeWallets ∧ db'.methods = db.methods) ∧
      (∃ added, db'.wallets.rows = db.wallets.rows ++ added) ∧
      wallet ∈ db'.wallets.rows ∧ wallet.chainNamespace = chainNamespace ∧ wallet.xpub.val = newXpub := by
  obtain ⟨stored, isNamespace, keyed⟩ := bind_eq_ok.mp done
  obtain ⟨key, isKey, named⟩ := bind_eq_ok.mp keyed
  obtain ⟨_, ⟨⟩, written⟩ := bind_eq_ok.mp named
  obtain rfl := caip2Namespace_ok isNamespace
  obtain rfl := varChar_ok.mp isKey
  split at written
  next existing found =>
    cases written
    -- no name is given, so the row stays as it is
    have same : (db.wallets.rename existing.id none).rows = db.wallets.rows := by
      refine (List.map_congr_left fun row _ => ?_).trans (List.map_id _)
      split <;> rfl
    have holds := List.find?_some found
    simp only [Wallet.holder, decide_eq_true_eq, Prod.mk.injEq] at holds
    refine ⟨⟨rfl, rfl, rfl⟩, ⟨[], ?_⟩, ?_, holds.2.1, congrArg Subtype.val holds.2.2⟩
    · rw [List.append_nil]
      exact same
    · rw [same]
      exact List.mem_of_find?_eq_some found
  · split at written
    · cases written
      exact ⟨⟨rfl, rfl, rfl⟩, ⟨_, rfl⟩, List.mem_append_right _ (List.mem_singleton_self _), rfl, rfl⟩
    · cases written

theorem mem_methodsToRotate {newWalletId : Uuid} {entry : StorePaymentMethod × Wallet} :
    entry ∈ methodsToRotate storeId none chainNamespace newWalletId db ↔ entry.1 ∈ db.methods.rows ∧
      entry.1.InScope storeId chainNamespace ∧ db.resolvedWallet entry.1 = some entry.2 ∧
      entry.2.id ≠ newWalletId := by
  obtain ⟨method, wallet⟩ := entry
  simp only [methodsToRotate, List.mem_filterMap, List.mem_insertionSort, List.mem_filter, InScope,
    Option.bind_eq_bind, Option.bind_eq_some_iff, Option.all_none, decide_eq_true_eq, and_true]
  constructor
  · rintro ⟨_, ⟨mem, scope⟩, _, resolves, kept⟩
    split at kept
    next moves =>
      cases kept
      exact ⟨mem, scope, resolves, moves⟩
    · cases kept
  · rintro ⟨mem, scope, resolves, moves⟩
    exact ⟨method, ⟨mem, scope⟩, wallet, resolves, if_pos moves⟩

theorem nodup_methodsToRotate (newWalletId : Uuid) :
    ((methodsToRotate storeId none chainNamespace newWalletId db).map fun entry => entry.1.id).Nodup := by
  refine List.Nodup.map_on ?_ ?_
  · rintro ⟨method, wallet⟩ mem ⟨other, wallet'⟩ memOther same
    obtain ⟨memRow, _, resolves, _⟩ := mem_methodsToRotate.mp mem
    obtain ⟨memRow', _, resolves', _⟩ := mem_methodsToRotate.mp memOther
    obtain rfl : method = other := db.methods.eq_of_key memRow memRow' same
    rw [resolves] at resolves'
    cases resolves'
    rfl
  refine List.Nodup.filterMap ?_ ?_
  · intro method other entry isEntry isEntry'
    simp only [Option.mem_def, Option.bind_eq_bind, Option.bind_eq_some_iff] at isEntry isEntry'
    obtain ⟨_, _, kept⟩ := isEntry
    obtain ⟨_, _, kept'⟩ := isEntry'
    split at kept <;> cases kept
    split at kept' <;> cases kept'
    rfl
  · exact (List.perm_insertionSort _ _).nodup_iff.mpr (db.methods.nodup.of_map.filter _)

/-- What a rotation leaves of a method, and where the method derives from then. -/
theorem rotated_method (target : Wallet) {store : Store} (isStore : db.stores.find? storeId = some store)
    (mem : method ∈ db.methods.rows)
    (resolves : method.InScope storeId chainNamespace → (db.resolvedWallet method).isSome = true) :
    let methods := methodsToRotate storeId none chainNamespace target.id db
    let pinned := (methods.filter fun entry => entry.1.walletId.isSome).map fun entry => entry.1.id
    let moved := if pinned.contains method.id then { method with walletId := some target.id } else method
    let overrides :=
      if methods.any fun entry => entry.1.walletId.isNone then
        db.storeWallets.put ⟨storeId, chainNamespace, target.id⟩
      else db.storeWallets
    (method.InScope storeId chainNamespace →
      { db with storeWallets := overrides }.methodWallet store moved = some target.id) ∧
    (¬ method.InScope storeId chainNamespace → moved = method ∧
      ∀ store, store.id = method.storeId →
        { db with storeWallets := overrides }.methodWallet store method = db.methodWallet store method) := by
  intro methods pinned moved overrides
  have isPinned : pinned.contains method.id = true ↔ ∃ wallet, (method, wallet) ∈ methods ∧
      method.walletId.isSome = true := by
    simp only [pinned, List.contains_iff_mem, List.mem_map, List.mem_filter]
    constructor
    · rintro ⟨⟨other, wallet⟩, ⟨inMethods, isSome⟩, same⟩
      obtain rfl := db.methods.eq_of_key (mem_methodsToRotate.mp inMethods).1 mem same
      exact ⟨wallet, inMethods, isSome⟩
    · rintro ⟨wallet, inMethods, isSome⟩
      exact ⟨(method, wallet), ⟨inMethods, isSome⟩, rfl⟩
  constructor
  · intro scope
    obtain ⟨previous, resolved⟩ := Option.isSome_iff_exists.mp (resolves scope)
    obtain ⟨_, isOther, derives, _, _⟩ := AccountDb.resolvedWallet_eq_some.mp resolved
    rw [scope.1, isStore] at isOther
    cases isOther
    have onTarget : (method, previous) ∉ methods → previous.id = target.id := by
      intro left
      by_contra moves
      exact left (mem_methodsToRotate.mpr ⟨mem, scope, resolved, moves⟩)
    by_cases pins : pinned.contains method.id = true
    · rw [show moved = { method with walletId := some target.id } from if_pos pins]
      rfl
    rw [show moved = method from if_neg pins]
    unfold AccountDb.methodWallet at derives ⊢
    cases pin : method.walletId with
    | some walletId =>
      rw [pin, Option.some_or] at derives
      rw [Option.some_or, derives, onTarget]
      intro inMethods
      exact pins (isPinned.mpr ⟨previous, inMethods, by rw [pin]; rfl⟩)
    | none =>
      rw [pin, Option.none_or] at derives
      rw [Option.none_or]
      unfold AccountDb.storeWalletResolution at derives ⊢
      by_cases needs : (methods.any fun entry => entry.1.walletId.isNone) = true
      · have isId : store.id = storeId := (Table.find?_eq_some.mp isStore).2
        have isSlot : StoreWallet.slot ⟨storeId, chainNamespace, target.id⟩ =
            (store.id, method.chainId.chainNamespace) := by rw [isId, scope.2]; rfl
        rw [show overrides = _ from if_pos needs]
        dsimp only
        rw [Table.find?_put, if_pos isSlot]
        rfl
      · rw [show overrides = db.storeWallets from if_neg needs, ← onTarget]
        · exact derives
        · intro inMethods
          exact needs (List.any_eq_true.mpr ⟨_, inMethods, by simp [pin]⟩)
  intro outside
  have unpinned : ¬ pinned.contains method.id = true := by
    intro pins
    obtain ⟨_, inMethods, _⟩ := isPinned.mp pins
    exact outside (mem_methodsToRotate.mp inMethods).2.1
  refine ⟨if_neg unpinned, fun store isId => ?_⟩
  have same : overrides.find? (store.id, method.chainId.chainNamespace) =
      db.storeWallets.find? (store.id, method.chainId.chainNamespace) := by
    simp only [overrides]
    split
    · rw [Table.find?_put, if_neg]
      intro isSlot
      obtain ⟨sameStore, sameFamily⟩ := Prod.mk.inj isSlot
      exact outside ⟨isId.symm.trans sameStore.symm, sameFamily.symm⟩
    · rfl
  unfold AccountDb.methodWallet AccountDb.storeWalletResolution
  dsimp only
  rw [same]

/--
Where every payment method of the store in the family resolves to a wallet, a
rotation that goes through makes all of them resolve to the wallet of the new
key.  Every other method that resolved to a wallet is the same row and resolves
to the same wallet, the rows of the wallets stay, counters included, and the
records are one for each method that derived from another wallet, with that
wallet's key and index.
-/
theorem rotation_moves_store {rotations : List WalletRotation}
    (resolves : ∀ method ∈ db.methods.rows, method.InScope storeId chainNamespace →
      (db.resolvedWallet method).isSome = true)
    (done : rotateStoreXpub id storeId chainNamespace newXpub db = .ok (rotations, db')) :
    ∃ target ∈ db'.wallets.rows, target.chainNamespace = chainNamespace ∧ target.xpub.val = newXpub ∧
      db'.methods.keys = db.methods.keys ∧
      (∀ method ∈ db'.methods.rows, method.InScope storeId chainNamespace →
        db'.resolvedWallet method = some target) ∧
      (∀ method ∈ db.methods.rows, ¬ method.InScope storeId chainNamespace → ∀ wallet,
        db.resolvedWallet method = some wallet →
        method ∈ db'.methods.rows ∧ db'.resolvedWallet method = some wallet) ∧
      (∀ wallet ∈ db.wallets.rows, wallet ∈ db'.wallets.rows) ∧
      (rotations.map WalletRotation.paymentMethodId).Nodup ∧
      ∀ rotation, rotation ∈ rotations ↔ ∃ method ∈ db.methods.rows, ∃ previous,
        method.InScope storeId chainNamespace ∧ db.resolvedWallet method = some previous ∧
        previous.id ≠ target.id ∧
        rotation = ⟨storeId, previous.xpub.val, newXpub, method.id, previous.derivationIndex⟩ := by
  obtain ⟨store, found, done⟩ := bind_eq_ok.mp done
  obtain ⟨_, _, done⟩ := bind_eq_ok.mp done
  obtain ⟨⟨target, mid⟩, upserted, done⟩ := bind_eq_ok.mp done
  cases done
  obtain ⟨⟨stores, overrides, methods⟩, ⟨added, rows⟩, memTarget, family, isKey⟩ := upsertWallet_unnamed upserted
  have isStore : mid.stores.find? storeId = some store := by
    rw [stores]
    exact findStore_ok found
  have still : ∀ {method wallet}, db.resolvedWallet method = some wallet →
      mid.resolvedWallet method = some wallet :=
    AccountDb.resolvedWallet_of_added stores overrides rows
  have resolvesMid : ∀ method ∈ mid.methods.rows, method.InScope storeId chainNamespace →
      (mid.resolvedWallet method).isSome = true := by
    intro method mem scope
    rw [methods] at mem
    obtain ⟨wallet, resolved⟩ := Option.isSome_iff_exists.mp (resolves method mem scope)
    rw [still resolved]
    rfl
  refine ⟨target, memTarget, family, isKey, ?_, ?_, ?_, ?_, ?_, ?_⟩
  · rw [Table.keys_update, methods]
  · intro moved memMoved scope
    obtain ⟨method, mem, rfl⟩ := List.mem_map.mp memMoved
    have sameScope : method.InScope storeId chainNamespace := by
      split at scope <;> exact scope
    have derives := (rotated_method target isStore mem (resolvesMid method mem)).1 sameScope
    refine AccountDb.resolvedWallet_eq_some.mpr ⟨store, ?_, derives, memTarget, ?_⟩
    · rw [scope.1]
      exact isStore
    · rw [family, scope.2]
  · intro method mem outside wallet resolved
    rw [← methods] at mem
    obtain ⟨stays, derives⟩ := (rotated_method target isStore mem (resolvesMid method mem)).2 outside
    obtain ⟨owner, isOwner, isId, memWallet, sameFamily⟩ := AccountDb.resolvedWallet_eq_some.mp (still resolved)
    refine ⟨List.mem_map.mpr ⟨method, mem, stays⟩, ?_⟩
    refine AccountDb.resolvedWallet_eq_some.mpr ⟨owner, isOwner, ?_, memWallet, sameFamily⟩
    exact (derives owner (Table.find?_eq_some.mp isOwner).2).trans isId
  · intro wallet mem
    exact rows ▸ List.mem_append_left added mem
  · rw [List.map_map]
    exact nodup_methodsToRotate target.id
  intro rotation
  simp only [List.mem_map, mem_methodsToRotate, Prod.exists]
  constructor
  · rintro ⟨method, previous, ⟨mem, scope, resolved, moves⟩, rfl⟩
    rw [methods] at mem
    obtain ⟨wallet, was⟩ := Option.isSome_iff_exists.mp (resolves method mem scope)
    have same := (still was).symm.trans resolved
    cases same
    exact ⟨method, mem, previous, scope, was, moves, rfl⟩
  · rintro ⟨method, mem, previous, scope, was, moves, rfl⟩
    exact ⟨method, previous, ⟨methods ▸ mem, scope, still was, moves⟩, rfl⟩

/-- An account with two stores that follow its primary, and a second wallet. -/
def twoStores : AccountDb where
  stores := ⟨[⟨1, 7⟩, ⟨2, 7⟩], by decide⟩
  wallets := ⟨⟨[⟨10, 7, Evm.ChainFamily.eip155, ⟨['a'], by decide⟩, 3, none, true⟩,
    ⟨11, 7, Evm.ChainFamily.eip155, ⟨['b'], by decide⟩, 0, none, false⟩], by decide⟩, by decide, by decide⟩
  storeWallets := Table.empty
  methods := ⟨[⟨20, 1, .evm 1, none, ⟨['E'], by decide⟩, 18, none, true⟩,
    ⟨21, 2, .evm 1, none, ⟨['E'], by decide⟩, 18, none, true⟩], by decide⟩

theorem rotation_of_one_store : ∃ rotations db',
    rotateStoreXpub 12 1 Evm.ChainFamily.eip155 ['b'] twoStores = .ok (rotations, db') ∧
      ∃ target ∈ db'.wallets.rows, ∀ method ∈ db'.methods.rows, method.InScope 1 Evm.ChainFamily.eip155 →
        db'.resolvedWallet method = some target := by
  have resolves : ∀ method ∈ twoStores.methods.rows, method.InScope 1 Evm.ChainFamily.eip155 →
      (twoStores.resolvedWallet method).isSome = true := by decide
  have done : rotateStoreXpub 12 1 Evm.ChainFamily.eip155 ['b'] twoStores = .ok (_, _) := rfl
  obtain ⟨target, mem, _, _, _, moved, _⟩ := rotation_moves_store resolves done
  exact ⟨_, _, done, target, mem, moved⟩

/-! ## Deletion -/

theorem Wallets.find?_primary (wallets : Wallets) {ownerId : Uuid} (mem : wallet ∈ wallets.rows)
    (isOwned : wallet.userId = ownerId) (isPrimary : wallet.isPrimary = true)
    (inFamily : wallet.chainNamespace = chainNamespace) :
    wallets.rows.find? (fun wallet => wallet.userId = ownerId ∧ wallet.isPrimary = true ∧
      wallet.chainNamespace = chainNamespace) = some wallet := by
  cases found : wallets.rows.find? (fun wallet => wallet.userId = ownerId ∧ wallet.isPrimary = true ∧
      wallet.chainNamespace = chainNamespace) with
  | none => simpa [isOwned, isPrimary, inFamily] using List.find?_eq_none.mp found wallet mem
  | some other =>
    have facts := List.find?_some found
    simp only [decide_eq_true_eq] at facts
    obtain ⟨isOwned', isPrimary', inFamily'⟩ := facts
    rw [wallets.onePrimary other (List.mem_of_find?_eq_some found) wallet mem isPrimary' isPrimary
      (Prod.ext (isOwned'.trans isOwned.symm) (inFamily'.trans inFamily.symm))]

theorem find?_filter_of_unmet {α : Type} {rows : List α} {keep meets : α → Bool}
    (unmet : ∀ row ∈ rows, meets row = true → keep row = true) :
    (rows.filter keep).find? meets = rows.find? meets := by
  rw [← List.head?_filter, ← List.head?_filter, List.filter_filter]
  congr 1
  refine List.filter_congr fun row mem => ?_
  cases met : meets row with
  | false => rfl
  | true => exact unmet row mem met

/-- No payment method resolves to the wallet. -/
def Unused (walletId : Uuid) (db : AccountDb) : Prop :=
  ∀ method ∈ db.methods.rows, (db.resolvedWallet method).map Wallet.id ≠ some walletId

theorem resolvedWallet_of_unused (unused : Unused walletId db) (done : deleteWallet walletId db = .ok db') :
    ∀ method ∈ db.methods.rows, db'.resolvedWallet method = db.resolvedWallet method := by
  unfold deleteWallet at done
  split at done
  · split at done
    · cases done
    cases done
    intro method mem
    have others : ∀ {wallet}, db.resolvedWallet method = some wallet → wallet.id ≠ walletId := by
      rintro wallet resolved rfl
      exact unused method mem (by rw [resolved]; rfl)
    have same : ∀ store, db.stores.find? method.storeId = some store →
        { db with wallets := db.wallets.delete walletId }.methodWallet store method =
          db.methodWallet store method := by
      intro store isStore
      unfold AccountDb.methodWallet AccountDb.storeWalletResolution
      cases pin : method.walletId with
      | some pinned => rfl
      | none =>
        cases override : db.storeWallets.find? (store.id, method.chainId.chainNamespace) with
        | some found => rfl
        | none =>
          simp only [Option.map_none, Option.none_or]
          refine congrArg _ (find?_filter_of_unmet fun row memRow met => ?_)
          -- a primary the method falls back on is not the wallet that is deleted
          obtain ⟨isOwned, isPrimary, inFamily⟩ := of_decide_eq_true met
          refine decide_eq_true (others ?_)
          refine AccountDb.resolvedWallet_eq_some.mpr ⟨store, isStore, ?_, memRow, inFamily⟩
          simp only [AccountDb.methodWallet, AccountDb.storeWalletResolution, pin, override,
            db.wallets.find?_primary memRow isOwned isPrimary inFamily, Option.map_none, Option.none_or,
            Option.map_some]
    ext wallet
    simp only [AccountDb.resolvedWallet_eq_some]
    constructor
    · rintro ⟨store, isStore, isId, memWallet, family⟩
      exact ⟨store, isStore, (same store isStore).symm.trans isId, (List.mem_filter.mp memWallet).1, family⟩
    · rintro ⟨store, isStore, isId, memWallet, family⟩
      refine ⟨store, isStore, (same store isStore).trans isId, List.mem_filter.mpr ⟨memWallet, ?_⟩, family⟩
      exact decide_eq_true
        (others (AccountDb.resolvedWallet_eq_some.mpr ⟨store, isStore, isId, memWallet, family⟩))
  · cases done

/-- Whatever a method resolves to after a deletion is not the deleted wallet. -/
theorem unused_of_deleted (done : deleteWallet walletId db = .ok db') (method : StorePaymentMethod) :
    (db'.resolvedWallet method).map Wallet.id ≠ some walletId := by
  unfold deleteWallet at done
  split at done
  · split at done
    · cases done
    cases done
    rw [Ne, Option.map_eq_some_iff]
    rintro ⟨wallet, resolved, isDeleted⟩
    obtain ⟨_, _, _, mem, _⟩ := AccountDb.resolvedWallet_eq_some.mp resolved
    exact of_decide_eq_true (List.mem_filter.mp mem).2 isDeleted
  · cases done

/--
A deletion leaves every payment method where it is exactly if it is refused or
no method resolves to the deleted wallet.
-/
theorem deletion_keeps_resolution (walletId : Uuid) (db : AccountDb) :
    (∀ db', deleteWallet walletId db = .ok db' →
      ∀ method ∈ db.methods.rows, db'.resolvedWallet method = db.resolvedWallet method) ↔
    (∀ db', deleteWallet walletId db ≠ .ok db') ∨ Unused walletId db := by
  constructor
  · intro keeps
    by_cases refused : ∀ db', deleteWallet walletId db ≠ .ok db'
    · exact .inl refused
    obtain ⟨db', done⟩ := not_forall_not.mp refused
    refine .inr fun method mem => ?_
    rw [← keeps db' done method mem]
    exact unused_of_deleted done method
  · rintro (refused | unused) db' done
    · exact absurd done (refused db')
    · exact resolvedWallet_of_unused unused done

theorem deletion_of_spare_wallet : ∃ db', deleteWallet 11 twoStores = .ok db' ∧
    ∀ method ∈ twoStores.methods.rows, db'.resolvedWallet method = twoStores.resolvedWallet method := by
  have unused : Unused 11 twoStores := by
    unfold Unused
    decide
  exact ⟨_, rfl, (deletion_keeps_resolution 11 twoStores).mpr (.inr unused) _ rfl⟩

/-- The primary is deleted although both stores derive from it. -/
theorem deletion_of_followed_primary : ∃ db', deleteWallet 10 twoStores = .ok db' ∧
    ∀ method ∈ twoStores.methods.rows, (twoStores.resolvedWallet method).map Wallet.id = some 10 ∧
      db'.resolvedWallet method = none :=
  ⟨_, rfl, by decide⟩

end EthPayServer.Data
