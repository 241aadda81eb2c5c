import Mathlib.Data.List.TakeWhile
import EthPayServer.Lib.Url

/-!
# Plugin connection strings

`connectionUrlFor` puts a plugin's credentials into the host's database URL.  It
looks for the old credentials in the whole rest of the URL and keeps every
query option, so an `@` behind the authority or a `user` option defeats it.
-/

namespace EthPayServer.Plugins

open Lib.Url

variable {base pluginId password url text rest : List Byte} (value : List Byte) (c : Byte)

inductive PluginPoolError
  | noScheme | noHost | schemaNameTooLong (name : List Byte)
  deriving DecidableEq

def maxIdentifierLen : Nat := 63

def roleName (pluginId : List Byte) : Except PluginPoolError (List Byte) :=
  let name := ascii "plugin_" ++ pluginId
  if name.length > maxIdentifierLen then .error (.schemaNameTooLong name) else .ok name

def isUnreserved : Bool :=
  65 ≤ c ∧ c ≤ 90 ∨ 97 ≤ c ∧ c ≤ 122 ∨ 48 ≤ c ∧ c ≤ 57 ∨ c ∈ ascii "-_.~"

/-- An upper-case hexadecimal digit. -/
def upperDigit (value : Nat) : Byte := Fin.ofNat 256 (if value < 10 then 48 + value else 55 + value)

def percentByte : List Byte :=
  if isUnreserved c then [c] else [37, upperDigit (c / 16), upperDigit (c % 16)]

def percentEncode : List Byte := value.flatMap percentByte

/-- What follows the last `@`, wherever that stands. -/
def hostAndRest (rest : List Byte) : List Byte := ((rsplitOnce 64 rest).map Prod.snd).getD rest

def connectionUrlFor (baseUrl pluginId password : List Byte) : Except PluginPoolError (List Byte) :=
  match splitOnce (ascii "://") baseUrl with
  | none => .error .noScheme
  | some (scheme, rest) =>
    if hostAndRest rest = [] then .error .noHost
    else (roleName pluginId).map fun role => scheme ++ ascii "://" ++
      (percentEncode role ++ 58 :: percentEncode password ++ 64 :: hostAndRest rest)

/-! ## What a URL parser makes of the encoded credentials -/

theorem percentByte_codes : (∀ d ∈ percentByte c, inAuthority d = true ∧ d ≠ 58 ∧ d ≠ 64) ∧
    (isUnreserved c = true → c ≠ 37) ∧
    hexByte (upperDigit (c / 16)) (upperDigit (c % 16)) = some c := by
  have plain : isUnreserved c = true → (inAuthority c = true ∧ c ≠ 58 ∧ c ≠ 64) ∧ c ≠ 37 := by
    revert c
    decide +kernel
  have digit : ∀ value < 16, inAuthority (upperDigit value) = true ∧ upperDigit value ≠ 58 ∧
      upperDigit value ≠ 64 := by decide +kernel
  refine ⟨?_, fun unreserved => (plain unreserved).2, by revert c; decide +kernel⟩
  unfold percentByte
  split
  next unreserved => simpa using (plain unreserved).1
  · simpa using ⟨by decide, digit _ (by omega), digit _ (by omega)⟩

theorem mem_percentEncode : ∀ d ∈ percentEncode value, inAuthority d = true ∧ d ≠ 58 ∧ d ≠ 64 := by
  intro d mem
  obtain ⟨c, _, mem⟩ := List.mem_flatMap.mp mem
  exact (percentByte_codes c).1 d mem

theorem percentDecode_percentEncode : percentDecode (percentEncode value) = value := by
  induction value with
  | nil => rfl
  | cons c rest ih =>
    obtain ⟨_, plain, coded⟩ := percentByte_codes c
    rw [percentEncode, List.flatMap_cons, ← percentEncode, percentByte]
    split
    next unreserved => simp [percentDecode, plain unreserved, ih]
    · simp [percentDecode, coded, ih]

/-! ## Who a plugin connects as -/

theorem not_mem_hostAndRest (rest : List Byte) : 64 ∉ hostAndRest rest := by
  unfold hostAndRest
  cases split : rsplitOnce 64 rest with
  | none => exact rsplitOnce_none.mp split
  | some halves => exact (rsplitOnce_eq split).2

theorem readRest_of_absent (absent : 64 ∉ rest) :
    (readRest rest).user = option? "user" (options (rest.dropWhile inAuthority)) ∧
      (readRest rest).password = option? "password" (options (rest.dropWhile inAuthority)) ∧
      (readRest rest).host = rest.takeWhile inAuthority := by
  have nowhere : rsplitOnce 64 (rest.takeWhile inAuthority) = none :=
    rsplitOnce_none.mpr fun mem => absent ((List.takeWhile_prefix _).mem mem)
  simp [readRest, nowhere, splitOnce, given]

/-- The encoded credentials are read as what they encode, under the options of what follows. -/
theorem readRest_written (role : List Byte) (absent : 64 ∉ rest) :
    readRest (percentEncode role ++ 58 :: percentEncode password ++ 64 :: rest) = { readRest rest with
      user := (readRest rest).user.or (given (percentEncode role))
      password := (readRest rest).password.or (given (percentEncode password)) } := by
  obtain ⟨isUser, isPassword, isHost⟩ := readRest_of_absent absent
  have all : ∀ c ∈ percentEncode role ++ 58 :: percentEncode password ++ [64], inAuthority c = true := by
    have coded := fun value d mem => (mem_percentEncode value d mem).1
    simpa [or_imp, forall_and] using
      ⟨coded role, (by decide : inAuthority 58 = true), coded password, (by decide : inAuthority 64 = true)⟩
  have noColon : 58 ∉ percentEncode role := fun mem => (mem_percentEncode _ _ mem).2.1 rfl
  have last : 64 ∉ rest.takeWhile inAuthority := fun mem => absent ((List.takeWhile_prefix _).mem mem)
  have isAuthority : (percentEncode role ++ 58 :: percentEncode password ++ 64 :: rest).takeWhile inAuthority =
      percentEncode role ++ 58 :: percentEncode password ++ 64 :: rest.takeWhile inAuthority := by
    rw [List.append_cons _ 64 rest, List.takeWhile_append_of_pos all, ← List.append_cons]
  have isTail : (percentEncode role ++ 58 :: percentEncode password ++ 64 :: rest).dropWhile inAuthority =
      rest.dropWhile inAuthority := by
    rw [List.append_cons _ 64, List.dropWhile_append_of_pos all]
  rw [isUser, isPassword]
  simp only [readRest, isAuthority, isTail, rsplitOnce_split last, Option.getD_some, splitOnce_byte noColon]
  congr 1
  exact isHost.symm

/-- What is kept of the URL reads as the whole does, and its options name no one else. -/
def Fits (base pluginId password : List Byte) : Prop :=
  ∀ halves ∈ splitOnce (ascii "://") base,
    let whole := readRest halves.2
    let kept := readRest (hostAndRest halves.2)
    kept.host = whole.host ∧ kept.database = whole.database ∧ kept.options = whole.options ∧
      (∀ user ∈ kept.user, user = ascii "plugin_" ++ pluginId) ∧
      (∀ other ∈ kept.password, other = password) ∧ (kept.password = none → password ≠ [])

instance decidableFits (base pluginId password : List Byte) : Decidable (Fits base pluginId password) := by
  unfold Fits
  infer_instance

theorem given_percentEncode : given (percentEncode value) = if value = [] then none else some value := by
  have decoded := percentDecode_percentEncode value
  unfold given
  by_cases empty : value = []
  · simp [empty, percentEncode]
  · have written : percentEncode value ≠ [] := by
      intro nothing
      rw [nothing, percentDecode] at decoded
      exact empty decoded.symm
    rw [if_neg written, if_neg empty, decoded]

/-- What a driver reads of the URL that is made for plugin `billing`. -/
def readBilling (base password : String) : Option Connection :=
  (connectionUrlFor (ascii base) (ascii "billing") (ascii password)).toOption.bind read

end EthPayServer.Plugins
