import CkbDilithium.Transfer.Assets

/-!
# The fee and the size that is built

The fee is computed for the transaction without a change output. It pays for the transaction that is
returned exactly when there is no change, or when the part of the fee that rounding up adds covers the
change output (`fee_pays_iff`).
-/

namespace CkbDilithium.Sdk

open Js

/-- What rounding up to whole shannons adds to the fee, in thousandths. -/
def roundingSlack (size : Nat) (feeRate : Int) : Int := -(size * feeRate) % 1000

theorem fee_rounded {x : Int} (h : 0 ≤ x) : (x + 999).tdiv 1000 * 1000 = x + -x % 1000 := by
  rw [Int.tdiv_eq_ediv_of_nonneg (by omega)]
  omega

/-- The fee pays for the returned size at the given rate. -/
def FeePays (feeRate : Int) (r : UnsignedTransferTransaction) : Prop := r.txSize * feeRate ≤ r.fee * 1000

/-- **The fee pays for the built transaction exactly when there is no change output, or rounding
covers it.** -/
theorem fee_pays_iff {options : BuildTransferOptions} {feeRate : Int} {r : UnsignedTransferTransaction}
    (hfeeRate : normalizeBigInt (options.feeRate.getD (.bigint defaultFeeRate)) (lit "feeRate") = .ok feeRate)
    (hnonneg : 0 ≤ feeRate) (hbuild : buildTransferTransaction options = .ok r) :
    FeePays feeRate r ↔ ∃ amount cells, normalizeBigInt options.amount (lit "amount") = .ok amount ∧
      FundingPrefix options amount feeRate cells ∧
      (surplus options amount feeRate cells = 0 ∨
        changeOutputSize (effectiveChangeLock options) * feeRate ≤
          roundingSlack (transferSize options cells) feeRate) := by
  obtain ⟨amount, feeRate', cells, plan⟩ := buildTransferTransaction_plan hbuild
  obtain rfl : feeRate = feeRate' := Result.ok_unique hfeeRate plan.feeRate_eq
  have hfee : r.fee * 1000 = transferSize options cells * feeRate +
      roundingSlack (transferSize options cells) feeRate := by
    rw [plan.planned.fee, transferFee, roundingSlack]
    exact fee_rounded (by positivity)
  have hslack : 0 ≤ roundingSlack (transferSize options cells) feeRate := Int.emod_nonneg _ (by decide)
  have hpays : FeePays feeRate r ↔ surplus options amount feeRate cells = 0 ∨
      changeOutputSize (effectiveChangeLock options) * feeRate ≤
        roundingSlack (transferSize options cells) feeRate := by
    have hsurplus := plan.funding.surplus_nonneg
    rw [FeePays, hfee, plan.planned.txSize]
    split_ifs with hpos
    · push_cast
      rw [add_mul]
      omega
    · simp only [Nat.add_zero]
      omega
  rw [hpays]
  constructor
  · exact fun h => ⟨amount, cells, plan.amount_eq, plan.funding, h⟩
  · intro h
    rcases h with ⟨amount', cells', hamount', hfunding', h⟩
    obtain rfl : amount = amount' := Result.ok_unique plan.amount_eq hamount'
    obtain rfl := hfunding'.unique plan.funding
    exact h

theorem fee_pays_iff_sampleTransfer :
    ∃ r, buildTransferTransaction sampleTransfer = .ok r ∧
      (FeePays 1000 r ↔ ∃ amount cells, normalizeBigInt sampleTransfer.amount (lit "amount") = .ok amount ∧
        FundingPrefix sampleTransfer amount 1000 cells ∧
        (surplus sampleTransfer amount 1000 cells = 0 ∨
          changeOutputSize (effectiveChangeLock sampleTransfer) * 1000 ≤
            roundingSlack (transferSize sampleTransfer cells) 1000)) := by
  obtain ⟨r, hr⟩ := sampleTransfer_returns
  exact ⟨r, hr, fee_pays_iff rfl (by decide) hr⟩

/-- The sample transfer has 121 bytes of change output that its fee does not pay for. -/
theorem sampleTransfer_underpays :
    ∃ r, buildTransferTransaction sampleTransfer = .ok r ∧ r.fee * 1000 + 121000 = r.txSize * 1000 ∧
      ¬ FeePays 1000 r := by
  obtain ⟨r, hr⟩ := sampleTransfer_returns
  have plan := sampleTransfer_plan hr
  obtain ⟨-, htwo, hchange⟩ := sampleTransfer_sizes
  have hfee : r.fee = 5623 := by
    rw [plan.planned.fee, transferFee, htwo]
    decide
  have hsize : r.txSize = 5744 := by
    rw [plan.planned.txSize, sampleTransfer_surplus, if_pos (by decide), htwo, hchange]
  refine ⟨r, hr, by rw [hfee, hsize]; decide, ?_⟩
  rw [FeePays, hfee, hsize]
  decide

end CkbDilithium.Sdk
