import Mathlib.Data.Rat.Floor
import Mathlib.Algebra.Order.BigOperators.Group.List
import Mathlib.Tactic.Linarith
import Mathlib.Tactic.Positivity

/-!
# Fixed-point decimal columns

`Numeric precision scale` holds the values a column of at most `precision`
digits, `scale` of them after the point, can hold.  A value is kept as its
number of units of the last digit, with the proof that it fits; a value that
does not fit has no representation and a write of it is refused.
-/

namespace EthPayServer.Lib

/-- A decimal of at most `precision` digits, `scale` of them after the point. -/
structure Numeric (precision scale : Nat) where
  units : Int
  fits : units.natAbs < 10 ^ precision
deriving DecidableEq, Repr

namespace Numeric

variable {precision scale : Nat}

@[ext] theorem ext {x y : Numeric precision scale} (same : x.units = y.units) : x = y := by
  cases x
  cases y
  congr

/-- The value a column stores for a number of units, if it fits. -/
def ofUnits? (units : Int) : Option (Numeric precision scale) :=
  if fits : units.natAbs < 10 ^ precision then some ⟨units, fits⟩ else none

/-- The number a stored value stands for. -/
def toRat (x : Numeric precision scale) : ℚ := x.units / 10 ^ scale

/-- Units of the last kept digit, ties away from zero. -/
def roundUnits (scale : Nat) (x : ℚ) : Int :=
  if 0 ≤ x then ⌊x * 10 ^ scale + 1 / 2⌋ else -⌊-x * 10 ^ scale + 1 / 2⌋

/-- The value a column stores for a number, if it fits after rounding. -/
def ofRat? (x : ℚ) : Option (Numeric precision scale) := ofUnits? (roundUnits scale x)

/-- The decimal text of a stored value, with every digit of the scale. -/
def text (x : Numeric precision scale) : String :=
  let fraction := toString (x.units.natAbs % 10 ^ scale)
  (if x.units < 0 then "-" else "") ++ toString (x.units.natAbs / 10 ^ scale) ++ "." ++
    String.ofList (List.replicate (scale - fraction.length) '0') ++ fraction

instance : Zero (Numeric precision scale) :=
  ⟨⟨0, by simp⟩⟩

@[simp] theorem units_zero : (0 : Numeric precision scale).units = 0 := rfl

theorem ofUnits?_eq_some {units : Int} {x : Numeric precision scale} :
    ofUnits? units = some x ↔ x.units = units := by
  unfold ofUnits?
  constructor
  · intro stored
    split at stored
    · cases stored
      rfl
    · cases stored
  · rintro rfl
    simp [x.fits]

theorem ofUnits?_isSome {units : Int} :
    (ofUnits? units : Option (Numeric precision scale)).isSome ↔ units.natAbs < 10 ^ precision := by
  unfold ofUnits?
  split <;> simp_all

theorem ofUnits?_units (x : Numeric precision scale) :
    (ofUnits? x.units : Option (Numeric precision scale)) = some x :=
  ofUnits?_eq_some.mpr rfl

@[simp] theorem toRat_zero : (0 : Numeric precision scale).toRat = 0 := by
  simp [toRat]

theorem pow_scale_pos (scale : Nat) : (0 : ℚ) < 10 ^ scale := by positivity

theorem toRat_le_toRat {x y : Numeric precision scale} : x.toRat ≤ y.toRat ↔ x.units ≤ y.units := by
  unfold toRat
  rw [div_le_div_iff_of_pos_right (pow_scale_pos scale)]
  exact Int.cast_le

theorem toRat_nonneg {x : Numeric precision scale} : 0 ≤ x.toRat ↔ 0 ≤ x.units := by
  simpa using toRat_le_toRat (x := (0 : Numeric precision scale)) (y := x)

theorem roundUnits_nonneg {x : ℚ} (nonneg : 0 ≤ x) : 0 ≤ roundUnits scale x := by
  unfold roundUnits
  rw [if_pos nonneg]
  exact Int.floor_nonneg.mpr (by positivity)

/-- A value with at most `scale` digits after the point is stored as it is. -/
theorem roundUnits_div (scale : Nat) (units : Int) :
    roundUnits scale ((units : ℚ) / 10 ^ scale) = units := by
  have half : ∀ n : Int, ⌊(n : ℚ) + 1 / 2⌋ = n := by
    intro n
    rw [Int.floor_eq_iff]
    constructor <;> linarith
  have cancel : (units : ℚ) / 10 ^ scale * 10 ^ scale = units :=
    div_mul_cancel₀ _ (pow_scale_pos scale).ne'
  unfold roundUnits
  split
  · rw [cancel, half]
  have negated : -((units : ℚ) / 10 ^ scale) * 10 ^ scale = ((-units : Int) : ℚ) := by
    rw [neg_mul, cancel]
    push_cast
    rfl
  rw [negated, half, neg_neg]

theorem ofRat?_toRat (x : Numeric precision scale) : ofRat? x.toRat = some x := by
  rw [ofRat?, toRat, roundUnits_div, ofUnits?_units]

/-- Rounding moves a nonnegative number by at most half a unit. -/
theorem roundUnits_le {x : ℚ} (nonneg : 0 ≤ x) :
    (roundUnits scale x : ℚ) ≤ x * 10 ^ scale + 1 / 2 := by
  unfold roundUnits
  rw [if_pos nonneg]
  exact Int.floor_le _

end Numeric

end EthPayServer.Lib
