import EthPayServer.Data.Invoice

/-!
# Settlement tolerance

How far short of the invoice amount a payment may fall and still settle it.
Every comparison is exact.
-/

namespace EthPayServer.Consumer

open Lib Data

/-- `MAX_TOLERANCE_PERCENT`. -/
def maxTolerancePercent : ℚ := 1 / 10

/-- `DEFAULT_TOLERANCE_PERCENT`. -/
def defaultTolerancePercent : ℚ := 1 / 10000

/-- Refuse a tolerance that is negative or above the ceiling; the text of a column is a number. -/
def parseTolerancePercent (value : ℚ) : Except String ℚ :=
  if value < 0 then .error "Tolerance cannot be negative"
  else if maxTolerancePercent < value then .error "Tolerance exceeds the maximum allowed"
  else .ok value

def effectiveTolerance (storeSetting : Option (Numeric 78 18)) :
    Except String (ℚ × ToleranceSource) :=
  match storeSetting with
  | some raw =>
    match parseTolerancePercent raw.toRat with
    | .ok value => .ok (value, .store)
    | .error e =>
      let text := raw.text
      .error s!"Stored tolerance '{text}' is invalid: {e}"
  | none => .ok (defaultTolerancePercent, .default)

def allowance (expected tolerancePercent : ℚ) : ℚ := expected * tolerancePercent / 100

/-- Whether `received` settles `expected` given a tolerance in percent of `expected`. -/
def isFullyPaid (received expected tolerancePercent : ℚ) : Bool :=
  decide (expected ≤ received + allowance expected tolerancePercent)

/-- The column's check leaves no stored tolerance to refuse, and the default fits the column. -/
theorem effectiveTolerance_total (storeId : Evm.Uuid) (db : Db) :
    ∃ (stored : Numeric 78 18) (source : ToleranceSource),
      effectiveTolerance (getSettlementTolerance storeId db) = .ok (stored.toRat, source) ∧
      0 ≤ stored.toRat ∧ stored.toRat ≤ 1 / 10 := by
  unfold getSettlementTolerance
  cases db.settlementSettings.find? storeId with
  | none =>
    have isDefault : (⟨10 ^ 14, by decide⟩ : Numeric 78 18).toRat = defaultTolerancePercent := by
      norm_num [Numeric.toRat, defaultTolerancePercent]
    refine ⟨⟨10 ^ 14, by decide⟩, .default, ?_, ?_, ?_⟩
    · rw [isDefault]
      rfl
    · rw [isDefault]
      norm_num [defaultTolerancePercent]
    · rw [isDefault]
      norm_num [defaultTolerancePercent]
  | some setting =>
    have low : ¬ setting.tolerancePercent.toRat < 0 := not_lt.mpr setting.nonneg
    have high : ¬ maxTolerancePercent < setting.tolerancePercent.toRat := not_lt.mpr setting.bounded
    refine ⟨setting.tolerancePercent, .store, ?_, setting.nonneg, setting.bounded⟩
    simp only [Option.map_some, effectiveTolerance, parseTolerancePercent, if_neg low, if_neg high]

/-- Whatever a store sets, a thousandth of the amount is the most that is forgiven. -/
theorem allowance_le {storeId : Evm.Uuid} {db : Db} {tolerance : ℚ} {source : ToleranceSource}
    (isTolerance : effectiveTolerance (getSettlementTolerance storeId db) = .ok (tolerance, source))
    (expected : ℚ) : allowance expected tolerance ≤ |expected| / 1000 := by
  obtain ⟨stored, _, isStored, nonneg, bounded⟩ := effectiveTolerance_total storeId db
  rw [isStored] at isTolerance
  cases isTolerance
  have raised := mul_le_mul (le_abs_self expected) bounded nonneg (abs_nonneg expected)
  unfold allowance
  linarith

/-- A shortfall that a tolerance accepts fits the column it is recorded in. -/
theorem shortfall_fits {received expected : Numeric 78 18} {tolerance : ℚ}
    (nonneg : 0 ≤ tolerance) (bounded : tolerance ≤ 1 / 10)
    (paid : isFullyPaid received.toRat expected.toRat tolerance = true)
    (short : ¬ expected.toRat ≤ received.toRat) :
    ∃ shortfall : Numeric 78 18, shortfall.toRat = expected.toRat - received.toRat := by
  have settles : expected.toRat ≤ received.toRat + allowance expected.toRat tolerance :=
    of_decide_eq_true paid
  have positive : 0 < allowance expected.toRat tolerance := by linarith
  have expectedPositive : 0 < expected.toRat := by
    unfold allowance at positive
    by_contra notPositive
    have : expected.toRat * tolerance ≤ 0 :=
      mul_nonpos_of_nonpos_of_nonneg (not_lt.mp notPositive) nonneg
    linarith
  have forgiven : allowance expected.toRat tolerance < expected.toRat := by
    unfold allowance
    nlinarith
  have receivedPositive : 0 ≤ received.toRat := by linarith
  have low := Numeric.toRat_nonneg.mp receivedPositive
  have less : received.units < expected.units :=
    not_le.mp fun le => short (Numeric.toRat_le_toRat.mpr le)
  have bound := expected.fits
  refine ⟨⟨expected.units - received.units, by omega⟩, ?_⟩
  simp only [Numeric.toRat]
  push_cast
  ring

end EthPayServer.Consumer
