import EthPayServer.Evm.Chain
import EthPayServer.Lib.Issuance
import EthPayServer.Lib.Proc

/-!
# Receiving addresses of an extended public key

Decoding a key, deriving a child and hashing a public key are done by libraries
outside the repository; they are a parameter here.  Of a decoded key only its
public key and its chain code take part in derivation, so two texts that differ
in the version bytes, the depth or the parent can stand for the same key.
-/

namespace EthPayServer.Evm

open Lib

/-- What the BIP-32 and hash libraries provide. -/
structure Bip32 where
  /-- a public key with its chain code -/
  Key : Type
  /-- `MainnetEncoder::xpub_from_base58` -/
  xpubFromBase58 : Text → Except String Key
  /-- `derive_child` -/
  deriveChild : Key → Nat → Except String Key
  publicKeyToAddress : Key → Address

/-- Child derivation from one key gives different addresses at different indices. -/
def Bip32.Injective (lib : Bip32) : Prop :=
  ∀ key i j child child', lib.deriveChild key i = .ok child → lib.deriveChild key j = .ok child' →
    lib.publicKeyToAddress child = lib.publicKeyToAddress child' → i = j

inductive XpubError where
  | invalidXpub (message : String)
  | walletDerivation (message : String)
deriving DecidableEq, Repr

inductive ChainFamily where
  | evm
  | tron
deriving DecidableEq, Repr

namespace ChainFamily

/-- `NAMESPACE_EIP155` -/
def eip155 : Text := ['e', 'i', 'p', '1', '5', '5']

/-- `NAMESPACE_TRON` -/
def tronNamespace : Text := ['t', 'r', 'o', 'n']

def fromNamespace (chainNamespace : Text) : Option ChainFamily :=
  if chainNamespace = eip155 then some .evm
  else if chainNamespace = tronNamespace then some .tron
  else none

end ChainFamily

def familyForNamespace (chainNamespace : Text) : Except XpubError ChainFamily :=
  match ChainFamily.fromNamespace chainNamespace with
  | some family => .ok family
  | none =>
    let text := String.ofList chainNamespace
    .error (.invalidXpub s!"no key derivation is implemented for chain namespace `{text}`")

structure XpubDeriver (lib : Bip32) where
  accountXpub : lib.Key
  family : ChainFamily

namespace XpubDeriver

def forFamily (lib : Bip32) (family : ChainFamily) (xpub : Text) : Except XpubError (XpubDeriver lib) :=
  match lib.xpubFromBase58 xpub with
  | .ok accountXpub => .ok ⟨accountXpub, family⟩
  | .error e => .error (.invalidXpub s!"failed to parse xpub: {e}")

def fromXpub (lib : Bip32) (chainNamespace xpub : Text) : Except XpubError (XpubDeriver lib) := do
  let family ← familyForNamespace chainNamespace
  forFamily lib family xpub

/-- Walk `0/{index}` below the account key. -/
def deriveAddressBytes (deriver : XpubDeriver lib) (index : Nat) : Except XpubError Address := do
  let external ← (lib.deriveChild deriver.accountXpub 0).mapError .walletDerivation
  let derived ← (lib.deriveChild external index).mapError .walletDerivation
  pure (lib.publicKeyToAddress derived)

end XpubDeriver

/-- Whether a text is accepted as an extended public key; short texts are refused unread. -/
def validateXpub (lib : Bip32) (xpub : Text) : Bool :=
  if (xpub.map Char.utf8Size).sum < 10 then false
  else match lib.xpubFromBase58 xpub with
    | .ok _ => true
    | .error _ => false

/-- The address a wallet of a family gives out at an index. -/
def addressAt (lib : Bip32) (chainNamespace xpub : Text) (index : Nat) : Option Address :=
  match XpubDeriver.fromXpub lib chainNamespace xpub >>= fun deriver => deriver.deriveAddressBytes index with
  | .ok address => some address
  | .error _ => none

theorem XpubDeriver.fromXpub_ok {chainNamespace xpub : Text} {deriver : XpubDeriver lib}
    (done : fromXpub lib chainNamespace xpub = .ok deriver) :
    lib.xpubFromBase58 xpub = .ok deriver.accountXpub := by
  obtain ⟨family, _, isDeriver⟩ := bind_eq_ok.mp done
  unfold forFamily at isDeriver
  split at isDeriver
  next isKey =>
    cases isDeriver
    exact isKey
  · cases isDeriver

theorem XpubDeriver.deriveAddressBytes_ok {deriver : XpubDeriver lib} {index : Nat} {address : Address}
    (done : deriver.deriveAddressBytes index = .ok address) :
    ∃ external derived, lib.deriveChild deriver.accountXpub 0 = .ok external ∧
      lib.deriveChild external index = .ok derived ∧ lib.publicKeyToAddress derived = address := by
  obtain ⟨external, isExternal, rest⟩ := bind_eq_ok.mp done
  obtain ⟨derived, isDerived, isAddress⟩ := bind_eq_ok.mp rest
  cases isAddress
  exact ⟨external, derived, mapError_eq_ok isExternal, mapError_eq_ok isDerived, rfl⟩

theorem addressAt_eq_some {chainNamespace xpub : Text} {index : Nat} {address : Address}
    (derives : addressAt lib chainNamespace xpub index = some address) :
    ∃ key external derived, lib.xpubFromBase58 xpub = .ok key ∧ lib.deriveChild key 0 = .ok external ∧
      lib.deriveChild external index = .ok derived ∧ lib.publicKeyToAddress derived = address := by
  unfold addressAt at derives
  split at derives
  next done =>
    cases derives
    obtain ⟨deriver, isDeriver, isAddress⟩ := bind_eq_ok.mp done
    obtain ⟨external, derived, rest⟩ := XpubDeriver.deriveAddressBytes_ok isAddress
    exact ⟨deriver.accountXpub, external, derived, XpubDeriver.fromXpub_ok isDeriver, rest⟩
  · cases derives

/-- The addresses of one key differ when its children's do. -/
theorem addressAt_injective (injective : lib.Injective) :
    Issuance.Injective fun chainNamespace xpub => addressAt lib chainNamespace xpub := by
  intro chainNamespace xpub i j address first second
  obtain ⟨key, external, derived, isKey, isExternal, isDerived, isAddress⟩ := addressAt_eq_some first
  obtain ⟨key', external', derived', isKey', isExternal', isDerived', isAddress'⟩ :=
    addressAt_eq_some second
  rw [isKey, Except.ok.injEq] at isKey'
  subst isKey'
  rw [isExternal, Except.ok.injEq] at isExternal'
  subst isExternal'
  exact injective external i j derived derived' isDerived isDerived' (isAddress.trans isAddress'.symm)

end EthPayServer.Evm
