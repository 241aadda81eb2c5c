import Mathlib.Data.List.Basic
import Mathlib.Algebra.Order.Ring.Int
import Mathlib.Tactic.Common

/-!
# Lists with consecutive numbers

The entries of a log that keeps its newest part: each carries the number after
the one before it.  What lies above a number is then what is left after a drop.
-/

namespace EthPayServer.Lib

variable {α β : Type}

/-- The entries carry the numbers from `base` on. -/
def Numbered (number : α → Int) : Int → List α → Prop
  | _, [] => True
  | base, entry :: rest => number entry = base ∧ Numbered number (base + 1) rest

namespace Numbered

variable {number : α → Int} {base : Int} {entries : List α}

section

variable (numbered : Numbered number base entries)
include numbered

theorem append {more : List α} (next : Numbered number (base + entries.length) more) :
    Numbered number base (entries ++ more) := by
  induction entries generalizing base with
  | nil => simpa using next
  | cons first rest ih =>
    refine ⟨numbered.1, ih numbered.2 ?_⟩
    rwa [List.length_cons, Nat.cast_succ, ← add_assoc, add_right_comm] at next

theorem append_singleton {entry : α} (next : number entry = base + entries.length) :
    Numbered number base (entries ++ [entry]) :=
  numbered.append ⟨next, trivial⟩

theorem map_eq : entries.map number = (List.range entries.length).map fun i : Nat => base + i := by
  induction entries generalizing base with
  | nil => rfl
  | cons first rest ih =>
    rw [List.map_cons, ih numbered.2, numbered.1, List.length_cons, List.range_succ_eq_map]
    simp [Function.comp_def, add_assoc, add_comm (1 : Int)]

theorem drop {k : Nat} (inside : k ≤ entries.length) : Numbered number (base + k) (entries.drop k) := by
  induction k generalizing base entries with
  | zero => simpa using numbered
  | succ k ih =>
    cases entries with
    | nil => trivial
    | cons first rest =>
      have later := ih numbered.2 (Nat.le_of_succ_le_succ inside)
      rw [List.drop_succ_cons]
      have shift : base + 1 + k = base + (k + 1 : Nat) := by
        push_cast
        omega
      rwa [shift] at later

theorem take (k : Nat) : Numbered number base (entries.take k) := by
  induction k generalizing base entries with
  | zero => trivial
  | succ k ih =>
    cases entries with
    | nil => trivial
    | cons first rest => exact ⟨numbered.1, ih numbered.2⟩

end

theorem map_iff {f : β → α} {items : List β} :
    Numbered number base (items.map f) ↔ Numbered (fun item => number (f item)) base items := by
  induction items generalizing base with
  | nil => exact Iff.rfl
  | cons first rest ih => exact and_congr Iff.rfl ih

theorem shift {number' : α → Int} {offset : Int} (same : ∀ entry, number' entry = number entry + offset)
    (numbered : Numbered number base entries) : Numbered number' (base + offset) entries := by
  induction entries generalizing base with
  | nil => trivial
  | cons first rest ih =>
    refine ⟨by rw [same, numbered.1], ?_⟩
    have later := ih numbered.2
    rwa [show base + 1 + offset = base + offset + 1 by omega] at later

theorem filter_lt (numbered : Numbered number base entries) (last : Int) :
    entries.filter (fun entry => decide (last < number entry)) = entries.drop (last + 1 - base).toNat := by
  induction entries generalizing base with
  | nil => simp
  | cons first rest ih =>
    by_cases above : last < base
    · have none : (last + 1 - base).toNat = 0 := by omega
      have noneLater : (last + 1 - (base + 1)).toNat = 0 := by omega
      rw [List.filter_cons_of_pos (by simpa [numbered.1] using above), ih numbered.2, none, noneLater]
      rfl
    · have more : (last + 1 - base).toNat = (last + 1 - (base + 1)).toNat + 1 := by omega
      rw [List.filter_cons_of_neg (by simpa [numbered.1] using above), ih numbered.2, more,
        List.drop_succ_cons]

theorem getLast? {last : α} (numbered : Numbered number base entries) (isLast : entries.getLast? = some last) :
    number last = base + entries.length - 1 := by
  induction entries generalizing base with
  | nil => cases isLast
  | cons first rest ih =>
    cases rest with
    | nil =>
      cases isLast
      simpa using numbered.1
    | cons second rest =>
      rw [List.getLast?_cons_cons] at isLast
      rw [ih numbered.2 isLast]
      simp only [List.length_cons]
      push_cast
      omega

end Numbered

end EthPayServer.Lib
