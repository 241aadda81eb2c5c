import Mathlib.Data.List.Basic
import Mathlib.Tactic.IntervalCases

/-!
# Fixed-width hexadecimal text

A value is written as `0x` and a fixed number of lower-case digits.  Reading
strips an optional `0x` or `0X`, insists on the number of digits and ignores letter
case, so a text in any letter case reads back as the value it was written from.
-/

namespace EthPayServer.Lib

abbrev Text : Type := List Char

instance : LawfulBEq Text := inferInstance

/-- ASCII lower case of a text. -/
def lower (text : Text) : Text := text.map Char.toLower

/-- The lower-case digit of a value below sixteen. -/
def hexDigit (value : Nat) : Char :=
  if value < 10 then Char.ofNat (48 + value) else Char.ofNat (87 + value)

/-- The value of a lower-case digit. -/
def hexValue? (digit : Char) : Option Nat :=
  if 48 ≤ digit.toNat ∧ digit.toNat ≤ 57 then some (digit.toNat - 48)
  else if 97 ≤ digit.toNat ∧ digit.toNat ≤ 102 then some (digit.toNat - 87)
  else none

/-- The last `digits` digits of a value, most significant first. -/
def hexDigits : Nat → Nat → List Char
  | 0, _ => []
  | digits + 1, value => hexDigits digits (value / 16) ++ [hexDigit (value % 16)]

/-- `0x` and a fixed number of lower-case digits. -/
def hexText (digits value : Nat) : Text := '0' :: 'x' :: hexDigits digits value

/-- Read lower-case digits, most significant first. -/
def readDigits (text : List Char) : Option Nat :=
  text.foldlM (fun read digit => (hexValue? digit).map (16 * read + ·)) 0

/-- Read a text of exactly `digits` digits in any letter case, with or without `0x` or `0X`. -/
def parseHex (digits : Nat) (text : Text) : Option Nat :=
  let body := match text with
    | '0' :: 'x' :: rest | '0' :: 'X' :: rest => rest
    | other => other
  if body.length = digits then readDigits (body.map Char.toLower) else none

/-- The text is `0x` and the value's digits, each letter in either case. -/
def IsHexText (digits value : Nat) (text : Text) : Prop :=
  ∃ body, text = '0' :: 'x' :: body ∧
    body.map Char.toLower = hexDigits digits value

variable {value digits : Nat}

theorem hexValue?_hexDigit (small : value < 16) : hexValue? (hexDigit value) = some value := by
  interval_cases value <;> rfl

theorem toLower_hexDigit (small : value < 16) : (hexDigit value).toLower = hexDigit value := by
  interval_cases value <;> rfl

@[simp] theorem length_hexDigits (digits value : Nat) :
    (hexDigits digits value).length = digits := by
  induction digits generalizing value with
  | zero => rfl
  | succ digits ih => simp [hexDigits, ih]

theorem map_toLower_hexDigits (digits value : Nat) :
    (hexDigits digits value).map Char.toLower = hexDigits digits value := by
  induction digits generalizing value with
  | zero => rfl
  | succ digits ih =>
    simp [hexDigits, ih, toLower_hexDigit (Nat.mod_lt value (by decide : 0 < 16))]

theorem readDigits_hexDigits (digits value : Nat) :
    readDigits (hexDigits digits value) = some (value % 16 ^ digits) := by
  induction digits generalizing value with
  | zero => simp [readDigits, hexDigits, Nat.mod_one]
  | succ digits ih =>
    have lastDigit := hexValue?_hexDigit (Nat.mod_lt value (by decide : 0 < 16))
    have leading : (hexDigits digits (value / 16)).foldlM
        (fun read digit => (hexValue? digit).map (16 * read + ·)) 0 =
          some (value / 16 % 16 ^ digits) := ih (value / 16)
    have recombine : 16 * (value / 16 % 16 ^ digits) + value % 16 = value % 16 ^ (digits + 1) := by
      rw [pow_succ', Nat.mod_mul]
      omega
    simp [readDigits, hexDigits, List.foldlM_append, leading, lastDigit, recombine]

theorem isHexText_hexText (digits value : Nat) : IsHexText digits value (hexText digits value) :=
  ⟨hexDigits digits value, rfl, map_toLower_hexDigits digits value⟩

theorem length_hexText (digits value : Nat) : (hexText digits value).length = digits + 2 := by
  simp [hexText]

theorem IsHexText.lower_eq (spelled : IsHexText digits value text) : lower text = hexText digits value := by
  obtain ⟨body, rfl, same⟩ := spelled
  simp [lower, hexText, same]

theorem IsHexText.parse_eq (spelled : IsHexText digits value text) (fits : value < 16 ^ digits) :
    parseHex digits text = some value := by
  obtain ⟨body, rfl, same⟩ := spelled
  have width : body.length = digits := by
    rw [← List.length_map (f := Char.toLower), same, length_hexDigits]
  simp [parseHex, width, same, readDigits_hexDigits, Nat.mod_eq_of_lt fits]

theorem parseHex_hexText (fits : value < 16 ^ digits) : parseHex digits (hexText digits value) = some value :=
  (isHexText_hexText digits value).parse_eq fits

theorem toLower_toLower (digit : Char) : digit.toLower.toLower = digit.toLower := by
  unfold Char.toLower
  split
  next upper =>
    rw [dif_neg]
    rintro ⟨-, high⟩
    have least : 65 ≤ digit.val.toNat := upper.1
    have most : digit.val.toNat ≤ 90 := upper.2
    have small : (digit.val.toNat + 32) % 2 ^ 32 ≤ 90 := high
    omega
  · rfl

theorem parseHex_lower (read : parseHex digits text = some value) :
    parseHex digits (lower text) = some value := by
  have lowered : ∀ body : Text, (lower body).map Char.toLower = body.map Char.toLower := by
    intro body
    rw [lower, List.map_map]
    exact List.map_congr_left fun digit _ => toLower_toLower digit
  have kept : ∀ body : Text, (if body.length = digits then readDigits (body.map Char.toLower) else none) =
      some value → (if (lower body).length = digits then readDigits ((lower body).map Char.toLower) else none) =
      some value := by
    intro body read
    rw [lowered, lower, List.length_map]
    exact read
  unfold parseHex at read
  split at read
  next rest => exact kept rest read
  next rest => exact kept rest read
  -- a text that begins with `0x` once lowered has a letter that is not a digit
  have isRead : readDigits (text.map Char.toLower) = some value := by
    dsimp only at read
    split at read
    · exact read
    · cases read
  unfold parseHex
  split
  next rest isLower =>
    rw [show text.map Char.toLower = _ from isLower] at isRead
    cases isRead
  next rest isLower =>
    rw [show text.map Char.toLower = _ from isLower] at isRead
    cases isRead
  · exact kept text read

theorem hexText_injective {value' : Nat} (fits : value < 16 ^ digits) (fits' : value' < 16 ^ digits)
    (same : hexText digits value = hexText digits value') : value = value' := by
  have read := parseHex_hexText fits
  rw [same, parseHex_hexText fits'] at read
  exact (Option.some.inj read).symm

end EthPayServer.Lib
