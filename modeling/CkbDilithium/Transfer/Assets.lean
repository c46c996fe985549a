import CkbDilithium.Transfer.Conservation

/-!
# Cells that carry other assets

The selection looks at locks and capacities only. A transfer consumes nothing but plain cells exactly
when the first funding prefix of the own cells has none with a type script or data
(`consumesPlain_iff`); a small token cell is taken first.
-/

namespace CkbDilithium.Sdk

open Js

/-- No type script and no data. -/
def Plain (cell : LiveCell) : Prop := cell.output.type = none ∧ cell.outputData = lit "0x"

instance (cell : LiveCell) : Decidable (Plain cell) := inferInstanceAs (Decidable (_ ∧ _))

/-- Every selected cell is plain, and so is the cell behind every input. -/
def ConsumesPlain (r : UnsignedTransferTransaction) : Prop :=
  (∀ cell ∈ r.selectedCells, Plain cell) ∧
    ∀ input ∈ r.rawTransaction.inputs, ∃ cell ∈ r.selectedCells, cell.outPoint = input.previousOutput ∧ Plain cell

/-- The cells that fund the transfer with the given amount and fee rate. -/
def FundedBy (options : BuildTransferOptions) (cells : List LiveCell) : Prop :=
  ∃ amount feeRate, normalizeBigInt options.amount (lit "amount") = .ok amount ∧
    normalizeBigInt (options.feeRate.getD (.bigint defaultFeeRate)) (lit "feeRate") = .ok feeRate ∧
    FundingPrefix options amount feeRate cells

theorem TransferPlan.fundedBy_iff {options : BuildTransferOptions} {amount feeRate : Int} {cells : List LiveCell}
    {r : UnsignedTransferTransaction} (plan : TransferPlan options amount feeRate cells r) {cells' : List LiveCell} :
    FundedBy options cells' ↔ cells' = cells := by
  constructor
  · intro h
    rcases h with ⟨amount', feeRate', hamount, hfeeRate, hfunding⟩
    obtain rfl : amount = amount' := Result.ok_unique plan.amount_eq hamount
    obtain rfl : feeRate = feeRate' := Result.ok_unique plan.feeRate_eq hfeeRate
    exact hfunding.unique plan.funding
  · rintro rfl
    exact ⟨amount, feeRate, plan.amount_eq, plan.feeRate_eq, plan.funding⟩

/-- **Only plain cells are consumed exactly when the funding prefix is plain.** -/
theorem consumesPlain_iff {options : BuildTransferOptions} {r : UnsignedTransferTransaction}
    (hbuild : buildTransferTransaction options = .ok r) :
    ConsumesPlain r ↔ ∃ cells, FundedBy options cells ∧ ∀ cell ∈ cells, Plain cell := by
  obtain ⟨amount, feeRate, cells, plan⟩ := buildTransferTransaction_plan hbuild
  simp only [plan.fundedBy_iff, exists_eq_left, ← plan.planned.selectedCells]
  refine ⟨fun h => h.1, fun h => ⟨h, fun input hinput => ?_⟩⟩
  rw [plan.inputs] at hinput
  obtain ⟨cell, hcell, rfl⟩ := List.mem_map.1 hinput
  exact ⟨cell, hcell, rfl, h cell hcell⟩

theorem consumesPlain_iff_sampleTransfer :
    ∃ r, buildTransferTransaction sampleTransfer = .ok r ∧
      (ConsumesPlain r ↔ ∃ cells, FundedBy sampleTransfer cells ∧ ∀ cell ∈ cells, Plain cell) := by
  obtain ⟨r, hr⟩ := sampleTransfer_returns
  exact ⟨r, hr, consumesPlain_iff hr⟩

/-- The sample transfer consumes the token cell. -/
theorem sampleTransfer_consumes_tokenCell :
    ∃ r, buildTransferTransaction sampleTransfer = .ok r ∧ tokenCell ∈ r.selectedCells ∧ ¬ ConsumesPlain r := by
  obtain ⟨r, hr⟩ := sampleTransfer_returns
  have hmem : tokenCell ∈ r.selectedCells := by
    rw [(sampleTransfer_plan hr).planned.selectedCells]
    simp
  have hnot : ¬ Plain tokenCell := by decide
  exact ⟨r, hr, hmem, fun hplain => hnot (hplain.1 _ hmem)⟩

end CkbDilithium.Sdk
