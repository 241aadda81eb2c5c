import Mathlib.Data.List.Basic

/-!
# Reading connection URLs

A text is its bytes.  `read` takes a `scheme://` URL apart: the credentials stand
before the last `@` of the authority, the rest of the authority is the host, and
a `user` or `password` option of the query overrides the credentials.
-/

namespace EthPayServer.Lib.Url

abbrev Byte : Type := Fin 256

scoped instance neZero_byte : @NeZero Nat Zero.ofOfNat0 256 := ⟨Nat.succ_ne_zero 255⟩

scoped instance lawfulBEq_byte : LawfulBEq Byte := instLawfulBEq

def ascii (text : String) : List Byte := text.toList.map fun c => Fin.ofNat 256 c.toNat

variable {needle text other before after credentials host tail : List Byte} {c : Byte}

/-- Split at the first occurrence of a needle. -/
def splitOnce (needle : List Byte) : List Byte → Option (List Byte × List Byte)
  | [] => none
  | c :: rest =>
    if needle <+: c :: rest then some ([], (c :: rest).drop needle.length)
    else (splitOnce needle rest).map fun (before, after) => (c :: before, after)

/-- Split at the last occurrence of a byte. -/
def rsplitOnce (separator : Byte) : List Byte → Option (List Byte × List Byte)
  | [] => none
  | c :: rest =>
    match rsplitOnce separator rest with
    | some (before, after) => some (c :: before, after)
    | none => if c = separator then some ([], rest) else none

theorem splitOnce_eq (split : splitOnce needle text = some (before, after)) :
    text = before ++ needle ++ after := by
  induction text generalizing before with
  | nil => cases split
  | cons c rest ih =>
    unfold splitOnce at split
    split at split
    next starts =>
      cases split
      exact (List.prefix_iff_eq_append.mp starts).symm
    · obtain ⟨⟨inner, _⟩, isInner, rfl, rfl⟩ := Option.map_eq_some_iff.mp split
      rw [ih isInner]
      rfl

/-- What follows the first occurrence does not decide where it is. -/
theorem splitOnce_append (nonempty : needle ≠ []) (split : splitOnce needle text = some (before, after)) :
    splitOnce needle (before ++ needle ++ other) = some (before, other) := by
  induction text generalizing before with
  | nil => cases split
  | cons c rest ih =>
    have isText := splitOnce_eq split
    unfold splitOnce at split
    split at split
    · cases split
      obtain ⟨head, more, rfl⟩ := List.exists_cons_of_ne_nil nonempty
      simp [splitOnce]
    next later =>
      obtain ⟨⟨inner, _⟩, isInner, rfl, rfl⟩ := Option.map_eq_some_iff.mp split
      have still : ¬ needle <+: c :: (inner ++ needle ++ other) := by
        intro starts
        have short : needle <+: c :: (inner ++ needle) :=
          List.prefix_of_prefix_length_le starts (by simp) (by simp; omega)
        rw [isText] at later
        exact later (short.trans (by simp))
      rw [List.cons_append, List.cons_append, splitOnce, if_neg still, ih isInner]
      rfl

theorem splitOnce_byte (absent : c ∉ before) : splitOnce [c] (before ++ c :: after) = some (before, after) := by
  induction before with
  | nil => simp [splitOnce]
  | cons head rest ih =>
    rw [List.mem_cons, not_or] at absent
    simp [splitOnce, absent.1, ih absent.2]

theorem rsplitOnce_none : rsplitOnce c text = none ↔ c ∉ text := by
  induction text with
  | nil => simp [rsplitOnce]
  | cons head rest ih =>
    cases later : rsplitOnce c rest with
    | some halves => simpa [rsplitOnce, later] using fun _ => by simpa [later] using ih
    | none => simpa [rsplitOnce, later, eq_comm] using fun _ => ih.mp later

theorem rsplitOnce_split (absent : c ∉ after) : rsplitOnce c (before ++ c :: after) = some (before, after) := by
  induction before with
  | nil => simp [rsplitOnce, rsplitOnce_none.mpr absent]
  | cons head rest ih => simp [rsplitOnce, ih]

theorem rsplitOnce_eq (split : rsplitOnce c text = some (before, after)) :
    text = before ++ c :: after ∧ c ∉ after := by
  induction text generalizing before with
  | nil => cases split
  | cons head rest ih =>
    unfold rsplitOnce at split
    cases later : rsplitOnce c rest with
    | some halves =>
      obtain ⟨inner, final⟩ := halves
      rw [later] at split
      cases split
      obtain ⟨rfl, absent⟩ := ih later
      exact ⟨rfl, absent⟩
    | none =>
      rw [later] at split
      obtain ⟨rfl, rfl, rfl⟩ : head = c ∧ [] = before ∧ rest = after := by simpa using split
      exact ⟨rfl, rsplitOnce_none.mp later⟩

/-! ## Percent coding -/

def hexValue (digit : Byte) : Option Nat :=
  if 48 ≤ digit ∧ digit ≤ 57 then some (digit - 48)
  else if 65 ≤ digit ∧ digit ≤ 70 then some (digit - 55)
  else if 97 ≤ digit ∧ digit ≤ 102 then some (digit - 87)
  else none

def hexByte (high low : Byte) : Option Byte := do
  return Fin.ofNat 256 (16 * (← hexValue high) + (← hexValue low))

def percentDecode : List Byte → List Byte
  | [] => []
  | c :: rest =>
    match c, rest with
    | 37, high :: low :: more =>
      match hexByte high low with
      | some byte => byte :: percentDecode more
      | none => 37 :: percentDecode (high :: low :: more)
    | c, rest => c :: percentDecode rest

/-- A name or a value of a query, where `+` stands for a blank. -/
def formDecode (text : List Byte) : List Byte := percentDecode (text.map fun c => if c = 43 then 32 else c)

/-! ## The reader -/

structure Connection where
  user : Option (List Byte)
  password : Option (List Byte)
  /-- Host and port, as written. -/
  host : List Byte
  database : List Byte
  options : List (List Byte × List Byte)
  deriving DecidableEq

def inAuthority (c : Byte) : Bool := c ∉ ascii "/?#"

/-- The options of what follows the authority. -/
def options (tail : List Byte) : List (List Byte × List Byte) :=
  match tail.dropWhile (· ∉ ascii "?#") with
  | 63 :: query => (((query.takeWhile (· ≠ 35)).splitOn 38).filter (· ≠ [])).map fun entry =>
      match splitOnce [61] entry with
      | some (name, value) => (formDecode name, formDecode value)
      | none => (formDecode entry, [])
  | _ => []

/-- The last option of a name. -/
def option? (name : String) (options : List (List Byte × List Byte)) : Option (List Byte) :=
  (options.filter (·.1 = ascii name)).getLast?.map Prod.snd

/-- A user or a password of the credentials; an empty one is none. -/
def given (text : List Byte) : Option (List Byte) := if text = [] then none else some (percentDecode text)

/-- Read what follows `://`. -/
def readRest (rest : List Byte) : Connection :=
  let authority := rest.takeWhile inAuthority
  let tail := rest.dropWhile inAuthority
  let (credentials, host) := (rsplitOnce 64 authority).getD ([], authority)
  let (user, password) := (splitOnce [58] credentials).getD (credentials, [])
  { user := (option? "user" (options tail)).or (given user)
    password := (option? "password" (options tail)).or (given password)
    host := host
    database := tail.takeWhile (· ∉ ascii "?#")
    options := (options tail).filter fun entry => entry.1 ≠ ascii "user" ∧ entry.1 ≠ ascii "password" }

def read (url : List Byte) : Option Connection :=
  (splitOnce (ascii "://") url).map fun halves => readRest halves.2

end EthPayServer.Lib.Url
