import CkbDilithium.Transfer.Returns

/-!
# Capacity is conserved

What the outputs of a transfer hold, read back from the emitted hex strings, and the fee add up to
the capacity of the inputs, which are distinct given cells with the lock of the sender; every output
holds at least the minimum of its lock (`Conserved`).
-/

namespace CkbDilithium.Sdk

open Js

/-- The inputs and outputs of a transfer balance. -/
structure Conserved (options : BuildTransferOptions) (r : UnsignedTransferTransaction) : Prop where
  /-- The selected cells are given ones, no cell more often than it is given. -/
  subperm : r.selectedCells.Subperm options.cells
  ownLock : ∀ cell ∈ r.selectedCells, cell.output.lock = options.fromLock
  inputs : r.rawTransaction.inputs = r.selectedCells.map fun cell => ⟨cell.outPoint, lit "0x0"⟩
  inputs_nodup : (options.cells.map LiveCell.outPoint).Nodup →
    (r.rawTransaction.inputs.map TransactionInput.previousOutput).Nodup
  inputCapacity : ∃ capacities, (r.selectedCells.mapM fun cell => hexToBigInt cell.output.capacity) =
    .ok capacities ∧ r.inputCapacity = capacities.sum
  /-- The recipient gets the amount; there is a second output exactly when there is change. -/
  outputs : ∃ amount recipient, normalizeBigInt options.amount (lit "amount") = .ok amount ∧
    recipient.lock = options.toLock ∧ hexToBigInt recipient.capacity = .ok amount ∧
    ((r.changeCapacity = 0 ∧ r.rawTransaction.outputs = [recipient]) ∨
      (r.changeCapacity > 0 ∧ ∃ change, r.rawTransaction.outputs = [recipient, change] ∧
        change.lock = options.changeLock.getD options.fromLock ∧
        hexToBigInt change.capacity = .ok r.changeCapacity))
  balance : r.inputCapacity = r.outputCapacity + r.fee
  outputCapacity : ∃ capacities, (r.rawTransaction.outputs.mapM fun output => hexToBigInt output.capacity) =
    .ok capacities ∧ r.outputCapacity = capacities.sum
  minimum : ∀ output ∈ r.rawTransaction.outputs, ∃ capacity minimum,
    hexToBigInt output.capacity = .ok capacity ∧
    minimumCellCapacity output.lock (lit "0x") none = .ok minimum ∧ minimum ≤ capacity
  outputsData : r.rawTransaction.outputsData.length = r.rawTransaction.outputs.length
  placeholder : r.placeholderTransaction.toRawTransaction = r.rawTransaction
  witnesses : r.placeholderTransaction.witnesses.length = r.rawTransaction.inputs.length

section Proofs

variable {options : BuildTransferOptions} {amount feeRate : Int} {cells : List LiveCell}
  {r : UnsignedTransferTransaction}

theorem FundingPrefix.subperm (h : FundingPrefix options amount feeRate cells) : cells.Subperm options.cells := by
  obtain ⟨k, -, rfl, -⟩ := h
  have hsub : ((ownCells options).take (k + 1)).Sublist (options.cells.insertionSort _) :=
    (List.take_sublist _ _).trans List.filter_sublist
  exact hsub.subperm.trans (List.perm_insertionSort _ _).subperm

theorem FundingPrefix.ownLock (h : FundingPrefix options amount feeRate cells) :
    ∀ cell ∈ cells, cell.output.lock = options.fromLock := by
  obtain ⟨k, -, rfl, -⟩ := h
  intro cell hcell
  exact sameLock_iff.1 (List.mem_filter.1 (List.mem_of_mem_take hcell)).2

theorem FundingPrefix.ne_nil (h : FundingPrefix options amount feeRate cells) : cells ≠ [] := by
  obtain ⟨k, hk, rfl, -⟩ := h
  exact Result.take_succ_ne_nil hk

/-- A surplus of a funding prefix is zero or at least the minimum of a change cell. -/
theorem FundingPrefix.surplus_nonneg (h : FundingPrefix options amount feeRate cells) :
    0 ≤ surplus options amount feeRate cells := by
  obtain ⟨k, -, -, hfunds, -⟩ := h
  have hmin := lockMinimum_pos (effectiveChangeLock options)
  rcases hfunds with hzero | hge <;> omega

theorem FundingPrefix.minimum_le_surplus (h : FundingPrefix options amount feeRate cells)
    (hpos : surplus options amount feeRate cells > 0) :
    lockMinimum (effectiveChangeLock options) ≤ surplus options amount feeRate cells := by
  obtain ⟨k, -, -, hfunds, -⟩ := h
  exact hfunds.resolve_left hpos.ne'

/-- The outputs are the recipient's and, with a positive surplus, one of the surplus. -/
theorem Planned.outputs (h : Planned options amount feeRate cells r) :
    r.rawTransaction.outputs = recipientOutput options amount :: changeOutputs options r.changeCapacity := by
  rw [h.rawTransaction, h.changeCapacity]
  rfl

theorem recipientOutput_capacity (h : TransferPlan options amount feeRate cells r) :
    hexToBigInt (recipientOutput options amount).capacity = .ok amount := by
  have hmin := lockMinimum_pos options.toLock
  have hge := h.amount_ge
  exact hexToBigInt_hexQuantity (by omega)

/-- Each output holds at least the minimum of its lock. -/
theorem TransferPlan.output_minimum (h : TransferPlan options amount feeRate cells r) :
    ∀ output ∈ r.rawTransaction.outputs, ∃ capacity minimum, hexToBigInt output.capacity = .ok capacity ∧
      minimumCellCapacity output.lock (lit "0x") none = .ok minimum ∧ minimum ≤ capacity := by
  intro output houtput
  rw [h.planned.outputs] at houtput
  rcases List.mem_cons.1 houtput with rfl | houtput
  · exact ⟨amount, _, recipientOutput_capacity h, h.recipientMinimum, h.amount_ge⟩
  · unfold changeOutputs at houtput
    split_ifs at houtput with hpos
    · rw [List.mem_singleton.1 houtput]
      refine ⟨_, _, hexToBigInt_hexQuantity hpos.le, h.planned.changeMinimum, ?_⟩
      rw [h.planned.changeCapacity] at hpos ⊢
      exact h.funding.minimum_le_surplus hpos
    · simp at houtput

/-- The capacities of the outputs add up to the amount and the change. -/
theorem TransferPlan.output_sum (h : TransferPlan options amount feeRate cells r) :
    ∃ capacities, (r.rawTransaction.outputs.mapM fun output => hexToBigInt output.capacity) = .ok capacities ∧
      r.outputCapacity = capacities.sum := by
  have hnonneg := h.funding.surplus_nonneg
  rw [← h.planned.changeCapacity] at hnonneg
  rw [h.planned.outputs, h.planned.outputCapacity, ← h.planned.changeCapacity, changeOutputs]
  split_ifs with hpos
  · refine ⟨[amount, r.changeCapacity], ?_, by simp⟩
    rw [Result.mapM_eq_ok]
    exact .cons (recipientOutput_capacity h) (.cons (hexToBigInt_hexQuantity hpos.le) .nil)
  · refine ⟨[amount], ?_, by simp; omega⟩
    rw [Result.mapM_eq_ok]
    exact .cons (recipientOutput_capacity h) .nil

theorem TransferPlan.inputs (h : TransferPlan options amount feeRate cells r) :
    r.rawTransaction.inputs = r.selectedCells.map fun cell => ⟨cell.outPoint, lit "0x0"⟩ := by
  rw [h.planned.rawTransaction, h.planned.selectedCells]
  rfl

theorem TransferPlan.placeholder_eq (h : TransferPlan options amount feeRate cells r) :
    ∃ n, cells.length = n + 1 ∧ r.placeholderTransaction = placeholderOf r.rawTransaction n := by
  obtain ⟨n, hn⟩ := Nat.exists_eq_succ_of_ne_zero (List.length_pos_iff.2 h.funding.ne_nil).ne'
  have hplaceholder := h.planned.placeholder
  rw [hn, withPlaceholderWitnesses_succ, Except.ok.injEq] at hplaceholder
  exact ⟨n, hn, hplaceholder.symm⟩

end Proofs

/-- **Capacity is conserved** in every transfer that is built. -/
theorem buildTransferTransaction_conserved {options : BuildTransferOptions} {r : UnsignedTransferTransaction}
    (hbuild : buildTransferTransaction options = .ok r) : Conserved options r := by
  obtain ⟨amount, feeRate, cells, plan⟩ := buildTransferTransaction_plan hbuild
  have hselected := plan.planned.selectedCells
  obtain ⟨n, hn, hplaceholder⟩ := plan.placeholder_eq
  constructor
  case subperm =>
    rw [hselected]
    exact plan.funding.subperm
  case ownLock =>
    rw [hselected]
    exact plan.funding.ownLock
  case inputs => exact plan.inputs
  case inputs_nodup =>
    intro hnodup
    rw [plan.inputs, List.map_map, hselected]
    obtain ⟨l, hperm, hsublist⟩ := plan.funding.subperm
    exact (hperm.map _).nodup_iff.1 (hnodup.sublist (hsublist.map _))
  case inputCapacity =>
    rw [hselected, plan.planned.inputCapacity]
    exact ⟨_, Result.mapM_of_forall_ok plan.capacities, rfl⟩
  case outputs =>
    refine ⟨amount, recipientOutput options amount, plan.amount_eq, rfl, recipientOutput_capacity plan, ?_⟩
    rw [plan.planned.outputs, changeOutputs]
    have hnonneg := plan.funding.surplus_nonneg
    rw [← plan.planned.changeCapacity] at hnonneg
    split_ifs with hpos
    · exact Or.inr ⟨hpos, _, rfl, rfl, hexToBigInt_hexQuantity hpos.le⟩
    · exact Or.inl ⟨by omega, rfl⟩
  case balance =>
    rw [plan.planned.inputCapacity, plan.planned.outputCapacity, plan.planned.fee, surplus]
    omega
  case outputCapacity => exact plan.output_sum
  case minimum => exact plan.output_minimum
  case outputsData =>
    rw [plan.planned.rawTransaction, plannedTransaction]
    simp [tentativeTransaction]
  case placeholder =>
    rw [hplaceholder]
    rfl
  case witnesses =>
    rw [hplaceholder, plan.inputs, List.length_map, hselected, hn, placeholderOf, List.length_cons,
      List.length_replicate]

/-! ### A sample transfer -/

def sampleTxHash : JsString := lit "0x71a7ba8fc96349fea0ed3a5c47992e3b4084b031a42264a018e0072e8172e46c"

/-- The lock of the all-zero public key. -/
def senderLock : LockScript where
  codeHash := lit "0x9bd7e06f3ecf4be0f2fcd2188b23f1b9fcc88e5d4b65a8637b17723bbda3cce8"
  hashType := lit "data1"
  args := lit "0xd6d04b8f2cb3ae2e82146e38eae6fb9ec5b922df1601325134deeacb509542f4"

def recipientLock : LockScript where
  codeHash := lit "0x9bd7e06f3ecf4be0f2fcd2188b23f1b9fcc88e5d4b65a8637b17723bbda3cce8"
  hashType := lit "type"
  args := lit "0xb39bbc0b3673c7d36450bc14cfcdad2d559c6c64"

def tokenScript : LockScript where
  codeHash := lit "0x5e7a36a77e68eecc013dfa2fe6a23f3b6c344b04005808694ae6dd45eea4cfd5"
  hashType := lit "type"
  args := lit "0x"

/-- 150 CKB in a cell with a token balance. -/
def tokenCell : LiveCell where
  blockNumber := lit "0x400"
  outPoint := ⟨sampleTxHash, lit "0x1"⟩
  output := ⟨lit "0x37e11d600", senderLock, some tokenScript⟩
  outputData := lit "0x00e1f505000000000000000000000000"
  txIndex := lit "0x1"

/-- 1000 CKB and nothing else. -/
def plainCell : LiveCell where
  blockNumber := lit "0x401"
  outPoint := ⟨sampleTxHash, lit "0x0"⟩
  output := ⟨lit "0x174876e800", senderLock, none⟩
  outputData := lit "0x"
  txIndex := lit "0x2"

/-- 100 CKB from a sender with both cells, at the default fee rate. -/
def sampleTransfer : BuildTransferOptions where
  cells := [plainCell, tokenCell]
  fromLock := senderLock
  toLock := recipientLock
  amount := .bigint 10000000000
  scriptConfig := ⟨senderLock.codeHash, senderLock.hashType, ⟨⟨sampleTxHash, lit "0x2"⟩, .code⟩, .testnet⟩
  changeLock := none
  feeRate := none

theorem tokenCell_read : hexToBigInt tokenCell.output.capacity = .ok 15000000000 := by decide +kernel

theorem plainCell_read : hexToBigInt plainCell.output.capacity = .ok 100000000000 := by decide +kernel

theorem tokenCell_capacity : cellCapacity tokenCell = 15000000000 := (hexToBigInt_cellCapacity tokenCell_read).symm

theorem plainCell_capacity : cellCapacity plainCell = 100000000000 := (hexToBigInt_cellCapacity plainCell_read).symm

theorem sampleTransfer_ownCells : ownCells sampleTransfer = [tokenCell, plainCell] := by
  have htoken : sameLock tokenCell.output.lock sampleTransfer.fromLock = true := sameLock_iff.2 rfl
  have hplain : sameLock plainCell.output.lock sampleTransfer.fromLock = true := sameLock_iff.2 rfl
  have hsort : sampleTransfer.cells.insertionSort (fun left right => cellCapacity left ≤ cellCapacity right) =
      [tokenCell, plainCell] := by
    simp [sampleTransfer, List.orderedInsert, plainCell_capacity, tokenCell_capacity]
  rw [ownCells, hsort, List.filter_cons, if_pos htoken, List.filter_cons, if_pos hplain, List.filter_nil]

theorem sampleTransfer_hashes : ∀ s ∈ [sampleTxHash, senderLock.codeHash], IsHash s := by decide +kernel

/-- The sizes with one input and with two, and what a change output adds. -/
theorem sampleTransfer_sizes : transferSize sampleTransfer [tokenCell] = 5555 ∧
    transferSize sampleTransfer [tokenCell, plainCell] = 5623 ∧
    changeOutputSize (effectiveChangeLock sampleTransfer) = 121 := by
  have htx : hexSize sampleTxHash = 32 := hexValue_length (sampleTransfer_hashes _ (by simp))
  have hcode : hexSize senderLock.codeHash = 32 := hexValue_length (sampleTransfer_hashes _ (by simp))
  have hargs : hexSize senderLock.args = 32 := by decide +kernel
  have hargs' : hexSize recipientLock.args = 20 := by decide +kernel
  have hcode' : hexSize recipientLock.codeHash = 32 := hcode
  refine ⟨?_, ?_, ?_⟩
  · simp [transferSize, sampleTransfer, tokenCell, htx, hcode', hargs']
  · simp [transferSize, sampleTransfer, tokenCell, plainCell, htx, hcode', hargs']
  · simp [changeOutputSize, effectiveChangeLock, sampleTransfer, hcode, hargs]

/-- The token cell alone leaves too little for a change cell. -/
theorem sampleTransfer_funding : FundingPrefix sampleTransfer 10000000000 1000 [tokenCell, plainCell] := by
  obtain ⟨hone, htwo, -⟩ := sampleTransfer_sizes
  have hminimum : lockMinimum (effectiveChangeLock sampleTransfer) = 7300000000 := by decide +kernel
  have hsecond : Funds sampleTransfer 10000000000 1000 [tokenCell, plainCell] := by
    simp [Funds, surplus, transferFee, htwo, hminimum, tokenCell_capacity, plainCell_capacity]
  have hfirst : ¬ Funds sampleTransfer 10000000000 1000 [tokenCell] := by
    simp [Funds, surplus, transferFee, hone, hminimum, tokenCell_capacity]
  rw [FundingPrefix, sampleTransfer_ownCells]
  refine ⟨1, by decide, rfl, hsecond, fun j hj => ?_⟩
  obtain rfl : j = 0 := by omega
  exact hfirst

/-- What is left of the two cells becomes a change cell. -/
theorem sampleTransfer_surplus :
    surplus sampleTransfer 10000000000 1000 [tokenCell, plainCell] = 104999994377 := by
  simp [surplus, transferFee, sampleTransfer_sizes.2.1, tokenCell_capacity, plainCell_capacity]

/-- The plan of every run on the sample transfer. -/
theorem sampleTransfer_plan {r : UnsignedTransferTransaction} (h : buildTransferTransaction sampleTransfer = .ok r) :
    TransferPlan sampleTransfer 10000000000 1000 [tokenCell, plainCell] r := by
  obtain ⟨amount, feeRate, cells, plan⟩ := buildTransferTransaction_plan h
  obtain rfl : 10000000000 = amount := Except.ok.inj plan.amount_eq
  obtain rfl : 1000 = feeRate := Except.ok.inj plan.feeRate_eq
  obtain rfl := sampleTransfer_funding.unique plan.funding
  exact plan

theorem sampleTransfer_wellFormed : WellFormedTransfer sampleTransfer 10000000000 := by
  have hindex : ∀ s ∈ [lit "0x0", lit "0x1", lit "0x2"], IsQuantity 32 s := by decide
  have hpoint : ∀ s ∈ [lit "0x0", lit "0x1", lit "0x2"], (⟨sampleTxHash, s⟩ : OutPoint).WellFormed :=
    fun s hs => ⟨sampleTransfer_hashes _ (by simp), hindex s hs⟩
  have hargs : ∀ s ∈ [senderLock.args, recipientLock.args], IsHex s := by decide +kernel
  have hsender : senderLock.WellFormed :=
    ⟨sampleTransfer_hashes _ (by simp), ⟨2, HashTypeByte.version (n := 1) (by decide) (by decide)⟩, hargs _ (by simp)⟩
  have hrecipient : recipientLock.WellFormed := ⟨hsender.codeHash, ⟨1, HashTypeByte.type⟩, hargs _ (by simp)⟩
  have htotal : ((ownCells sampleTransfer).map cellCapacity).sum < 2 ^ 64 := by
    rw [sampleTransfer_ownCells]
    simp [tokenCell_capacity, plainCell_capacity]
  have hsize : transferSize sampleTransfer (ownCells sampleTransfer) +
      changeOutputSize (effectiveChangeLock sampleTransfer) < 2 ^ 32 := by
    rw [sampleTransfer_ownCells, sampleTransfer_sizes.2.1, sampleTransfer_sizes.2.2]
    decide
  refine ⟨hpoint (lit "0x2") (by simp), ?_, ?_, hrecipient, hsender, by decide, by decide, htotal, hsize⟩ <;>
    intro cell hcell <;>
    simp only [sampleTransfer, List.mem_cons, List.not_mem_nil, or_false] at hcell <;>
    rcases hcell with rfl | rfl
  · exact hpoint (lit "0x0") (by simp)
  · exact hpoint (lit "0x1") (by simp)
  · rw [plainCell_capacity, plainCell_read]
  · rw [tokenCell_capacity, tokenCell_read]

theorem sampleTransfer_returns : ∃ r, buildTransferTransaction sampleTransfer = .ok r :=
  buildTransferTransaction_returns rfl rfl (by decide) (by decide +kernel) sampleTransfer_wellFormed
    sampleTransfer_funding

theorem buildTransferTransaction_conserved_sampleTransfer :
    ∃ r, buildTransferTransaction sampleTransfer = .ok r ∧ Conserved sampleTransfer r := by
  obtain ⟨r, hr⟩ := sampleTransfer_returns
  exact ⟨r, hr, buildTransferTransaction_conserved hr⟩

end CkbDilithium.Sdk
