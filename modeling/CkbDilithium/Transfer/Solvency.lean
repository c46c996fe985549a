import CkbDilithium.Transfer.Preflight

/-!
# What a transfer spends and what it consumes

Every transfer balances with its fee, so the outputs hold at most what the inputs hold exactly when the
fee is not negative. Nothing bounds the fee rate from below, and at a negative rate the fee of any
transfer is negative: the outputs then hold more than the inputs (`outputs_le_inputs_iff`).
-/

namespace CkbDilithium.Sdk

open Js

variable {options : BuildTransferOptions} {amount feeRate : Int} {cells : List LiveCell}
  {r : UnsignedTransferTransaction}

/-- The emitted outputs hold no more than the selected cells, read from their hex strings. -/
def Solvent (r : UnsignedTransferTransaction) : Prop :=
  ∃ outputs inputs, (r.rawTransaction.outputs.mapM fun output => hexToBigInt output.capacity) = .ok outputs ∧
    (r.selectedCells.mapM fun cell => hexToBigInt cell.output.capacity) = .ok inputs ∧
    outputs.sum ≤ inputs.sum

/-- The transfer is returned by the builder or by the preflight, for some recipient network. -/
def Returned (options : BuildTransferOptions) (r : UnsignedTransferTransaction) : Prop :=
  buildTransferTransaction options = .ok r ∨
    ∃ recipientNetwork p, validateTransferRequest options recipientNetwork = .ok p ∧ p.unsigned = r

theorem Returned.built (h : Returned options r) : buildTransferTransaction options = .ok r := by
  rcases h with h | ⟨recipientNetwork, p, hp, rfl⟩
  · exact h
  · obtain ⟨-, _, _, -, -, -, -, -, -, unsigned, hunsigned, rfl⟩ := validateTransferRequest_eq_ok.1 hp
    exact hunsigned

/-- A transfer has thousands of bytes, so that the rounding of the fee does not hide the sign of the
rate. -/
theorem transferFee_nonneg_iff (options : BuildTransferOptions) (cells : List LiveCell) :
    0 ≤ transferFee options feeRate cells ↔ 0 ≤ feeRate := by
  refine ⟨fun hfee => ?_, fun hfeeRate => transferFee_nonneg options hfeeRate cells⟩
  by_contra hneg
  have hbytes : 5403 ≤ transferSize options cells := by
    unfold transferSize
    omega
  have hsize : (5403 : Int) ≤ transferSize options cells := by exact_mod_cast hbytes
  have hproduct : (transferSize options cells : Int) * feeRate ≤ -5403 := by nlinarith
  have htdiv : (-(transferSize options cells * feeRate + 999)).tdiv 1000 ≥ 4 := by
    rw [Int.tdiv_eq_ediv_of_nonneg (by omega)]
    omega
  rw [Int.neg_tdiv] at htdiv
  unfold transferFee at hfee
  omega

/-- The outputs hold what the inputs hold less the fee. -/
theorem solvent_iff_fee_nonneg (plan : TransferPlan options amount feeRate cells r) : Solvent r ↔ 0 ≤ r.fee := by
  obtain ⟨outputs, houtputs, hsum⟩ := plan.output_sum
  have hinputs : (r.selectedCells.mapM fun cell => hexToBigInt cell.output.capacity) =
      .ok (cells.map cellCapacity) := by
    rw [plan.planned.selectedCells]
    exact Result.mapM_of_forall_ok plan.capacities
  have hbalance : (cells.map cellCapacity).sum = outputs.sum + r.fee := by
    rw [← hsum, plan.planned.outputCapacity, plan.planned.fee, surplus]
    ring
  constructor
  · intro h
    obtain ⟨outputs', inputs', houtputs', hinputs', hle⟩ := h
    obtain rfl : outputs = outputs' := Result.ok_unique houtputs houtputs'
    obtain rfl : cells.map cellCapacity = inputs' := Result.ok_unique hinputs hinputs'
    omega
  · intro hfee
    exact ⟨outputs, _, houtputs, hinputs, by omega⟩

/-- **A returned transfer spends no more than it consumes exactly when the fee rate is not negative.** -/
theorem outputs_le_inputs_iff
    (hfeeRate : normalizeBigInt (options.feeRate.getD (.bigint defaultFeeRate)) (lit "feeRate") = .ok feeRate)
    (h : Returned options r) : Solvent r ↔ 0 ≤ feeRate := by
  obtain ⟨amount, feeRate', cells, plan⟩ := buildTransferTransaction_plan h.built
  obtain rfl : feeRate = feeRate' := Result.ok_unique hfeeRate plan.feeRate_eq
  rw [solvent_iff_fee_nonneg plan, plan.planned.fee, transferFee_nonneg_iff]

theorem outputs_le_inputs_iff_sampleTransfer :
    ∃ r, buildTransferTransaction sampleTransfer = .ok r ∧ (Solvent r ↔ 0 ≤ (1000 : Int)) := by
  obtain ⟨r, hr⟩ := sampleTransfer_returns
  exact ⟨r, hr, outputs_le_inputs_iff rfl (Or.inl hr)⟩

/-! ### A negative fee rate -/

/-- The sample transfer at minus one shannon per byte. -/
def rebateTransfer : BuildTransferOptions := { sampleTransfer with feeRate := some (.bigint (-1000)) }

theorem rebateTransfer_ownCells : ownCells rebateTransfer = [tokenCell, plainCell] :=
  (ownCells_congr rfl rfl).trans sampleTransfer_ownCells

theorem rebateTransfer_size (cells : List LiveCell) :
    transferSize rebateTransfer cells = transferSize sampleTransfer cells := transferSize_congr rfl rfl cells

theorem rebateTransfer_changeLock : effectiveChangeLock rebateTransfer = effectiveChangeLock sampleTransfer := rfl

theorem rebateTransfer_wellFormed : WellFormedTransfer rebateTransfer 10000000000 := by
  have h := sampleTransfer_wellFormed
  have htotal := h.total_lt
  rw [sampleTransfer_ownCells, ← rebateTransfer_ownCells] at htotal
  have hsize : transferSize rebateTransfer (ownCells rebateTransfer) +
      changeOutputSize (effectiveChangeLock rebateTransfer) < 2 ^ 32 := by
    rw [rebateTransfer_ownCells, rebateTransfer_size, rebateTransfer_changeLock, sampleTransfer_sizes.2.1,
      sampleTransfer_sizes.2.2]
    decide
  exact ⟨h.cellDep, h.outPoints, h.capacities, h.toLock, h.changeLock, h.amount_nonneg, h.amount_lt, htotal, hsize⟩

/-- What is left of the token cell, and of both cells. -/
theorem rebateTransfer_surplus :
    surplus rebateTransfer 10000000000 (-1000) [tokenCell] = 5000005554 ∧
      surplus rebateTransfer 10000000000 (-1000) [tokenCell, plainCell] = 105000005622 := by
  obtain ⟨hone, htwo, -⟩ := sampleTransfer_sizes
  constructor
  · simp only [surplus, transferFee, rebateTransfer_size, hone, List.map_cons, List.map_nil, List.sum_cons,
      List.sum_nil, tokenCell_capacity]
    decide
  · simp only [surplus, transferFee, rebateTransfer_size, htwo, List.map_cons, List.map_nil, List.sum_cons,
      List.sum_nil, tokenCell_capacity, plainCell_capacity]
    decide

/-- The token cell alone leaves too little for a change cell. -/
theorem rebateTransfer_funding : FundingPrefix rebateTransfer 10000000000 (-1000) [tokenCell, plainCell] := by
  obtain ⟨hone, htwo⟩ := rebateTransfer_surplus
  have hminimum : lockMinimum (effectiveChangeLock rebateTransfer) = 7300000000 := by decide +kernel
  rw [FundingPrefix, rebateTransfer_ownCells]
  refine ⟨1, by decide, rfl, ?_, fun j hj => ?_⟩
  · rw [Funds, htwo, hminimum]
    decide
  · obtain rfl : j = 0 := by omega
    change ¬ Funds rebateTransfer 10000000000 (-1000) [tokenCell]
    rw [Funds, hone, hminimum]
    decide

theorem rebateTransfer_returns : ∃ r, buildTransferTransaction rebateTransfer = .ok r := by
  obtain ⟨hone, htwo⟩ := rebateTransfer_surplus
  have hsurplus : ∀ k < (ownCells rebateTransfer).length,
      surplus rebateTransfer 10000000000 (-1000) ((ownCells rebateTransfer).take (k + 1)) < 2 ^ 64 := by
    rw [rebateTransfer_ownCells]
    intro k hk
    match k, hk with
    | 0, _ => exact lt_of_eq_of_lt hone (by decide)
    | 1, _ => exact lt_of_eq_of_lt htwo (by decide)
  rcases buildTransferTransaction_outcome rfl rfl (by decide +kernel) rebateTransfer_wellFormed hsurplus with
    hbuilt | ⟨hnot, -⟩
  · exact hbuilt
  · obtain ⟨k, hk, hcells, hfunds, -⟩ := rebateTransfer_funding
    rw [hcells] at hfunds
    exact absurd hfunds (hnot k hk)

/-- At minus one shannon per byte the outputs of the sample transfer hold 5622 shannons more than its
inputs. -/
theorem rebateTransfer_not_solvent :
    ∃ r, buildTransferTransaction rebateTransfer = .ok r ∧ r.outputCapacity = r.inputCapacity + 5622 ∧
      ¬ Solvent r := by
  obtain ⟨r, hr⟩ := rebateTransfer_returns
  obtain ⟨amount, feeRate, cells, plan⟩ := buildTransferTransaction_plan hr
  obtain rfl : 10000000000 = amount := Except.ok.inj plan.amount_eq
  obtain rfl : -1000 = feeRate := Except.ok.inj plan.feeRate_eq
  obtain rfl := rebateTransfer_funding.unique plan.funding
  refine ⟨r, hr, ?_, ?_⟩
  · rw [plan.planned.outputCapacity, plan.planned.inputCapacity, rebateTransfer_surplus.2]
    simp [tokenCell_capacity, plainCell_capacity]
  · rw [solvent_iff_fee_nonneg plan, plan.planned.fee, transferFee_nonneg_iff]
    decide

end CkbDilithium.Sdk
