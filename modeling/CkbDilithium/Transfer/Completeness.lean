import CkbDilithium.Transfer.Errors
import CkbDilithium.Transfer.Preflight

/-!
# Which transfers the selection finds

The loop tries the prefixes of the own cells in ascending order. A set of cells that funds the transfer
with a change cell is enough when it becomes a prefix by adding cells that pay for their inputs, such as
all the others, since the prefix then funds it as well (`buildTransferTransaction_complete`). A set that
funds the transfer exactly, without change, is found only when it is one of the prefixes, and cells that
cost more than they hold are taken all the same (`fundable_rejected`).
-/

namespace CkbDilithium.Sdk

open Js

variable {options : BuildTransferOptions} {amount feeRate : Int} {cells : List LiveCell}

/-- What the input of a cell, with its witness, adds to the serialized size. -/
def inputSize (cell : LiveCell) : Nat := 36 + hexSize cell.outPoint.txHash

/-- The cell holds at least what its input adds to the fee. -/
def PaysForInput (feeRate : Int) (cell : LiveCell) : Prop := inputSize cell * feeRate ≤ cellCapacity cell * 1000

/-- Some own cells, none used twice, fund the transfer. -/
structure SubsetFunds (options : BuildTransferOptions) (amount feeRate : Int) (cells : List LiveCell) : Prop where
  ne_nil : cells ≠ []
  own : cells.Subperm (lockedCells options)
  funds : Funds options amount feeRate cells

/-! ### More cells leave more -/

theorem transferSize_append (options : BuildTransferOptions) (cells rest : List LiveCell) :
    transferSize options (cells ++ rest) = transferSize options cells + (rest.map inputSize).sum := by
  have hrest : (rest.map fun cell => 36 + hexSize cell.outPoint.txHash) = rest.map inputSize := rfl
  rw [transferSize, transferSize, List.map_append, List.sum_append, hrest]
  omega

theorem sum_inputSize_le {rest : List LiveCell} (h : ∀ cell ∈ rest, PaysForInput feeRate cell) :
    ((rest.map inputSize).sum : Int) * feeRate ≤ (rest.map cellCapacity).sum * 1000 := by
  induction rest with
  | nil => simp
  | cons cell rest ih =>
    have hcell := h cell (by simp)
    have hrest := ih fun cell' hcell' => h cell' (by simp [hcell'])
    unfold PaysForInput at hcell
    rw [List.map_cons, List.map_cons, List.sum_cons, List.sum_cons, Nat.cast_add, add_mul, add_mul]
    omega

/-- Cells that pay for their inputs do not lower the surplus. -/
theorem surplus_le_append (hnonneg : 0 ≤ feeRate) {rest : List LiveCell}
    (h : ∀ cell ∈ rest, PaysForInput feeRate cell) :
    surplus options amount feeRate cells ≤ surplus options amount feeRate (cells ++ rest) := by
  have hrest := sum_inputSize_le h
  have hsize : 0 ≤ (transferSize options cells : Int) * feeRate := by positivity
  have hadded : 0 ≤ ((rest.map inputSize).sum : Int) * feeRate := by positivity
  unfold surplus transferFee
  rw [transferSize_append, List.map_append, List.sum_append, Nat.cast_add, add_mul,
    Int.tdiv_eq_ediv_of_nonneg (by omega), Int.tdiv_eq_ediv_of_nonneg (by omega)]
  omega

theorem surplus_perm {cells' : List LiveCell} (h : cells.Perm cells') :
    surplus options amount feeRate cells = surplus options amount feeRate cells' := by
  unfold surplus transferFee transferSize
  rw [(h.map cellCapacity).sum_eq, (h.map fun cell => 36 + hexSize cell.outPoint.txHash).sum_eq]

/-! ### The selection -/

/-- The cells, with further own cells, are the first ones in the order in which the loop takes them. When
there are further ones, the cells leave a change cell and each further one pays for its input. -/
def WithinReach (options : BuildTransferOptions) (amount feeRate : Int) (cells : List LiveCell) : Prop :=
  ∃ k further, ((ownCells options).take k).Perm (cells ++ further) ∧
    (further = [] ∨ lockMinimum (effectiveChangeLock options) ≤ surplus options amount feeRate cells ∧
      ∀ cell ∈ further, PaysForInput feeRate cell)

/-- The prefix funds the transfer as the cells do. -/
theorem WithinReach.funds (hnonneg : 0 ≤ feeRate) (hfunds : Funds options amount feeRate cells)
    (hreach : WithinReach options amount feeRate cells) :
    ∃ k, cells.length ≤ ((ownCells options).take k).length ∧
      Funds options amount feeRate ((ownCells options).take k) := by
  obtain ⟨k, further, hperm, hfurther⟩ := hreach
  refine ⟨k, ?_, ?_⟩
  · rw [hperm.length_eq, List.length_append]
    omega
  · rcases hfurther with rfl | ⟨hchange, hpays⟩
    · rw [List.append_nil] at hperm
      rwa [Funds, surplus_perm hperm]
    · rw [Funds, surplus_perm hperm]
      exact Or.inr (hchange.trans (surplus_le_append hnonneg hpays))

/-- Some prefix of the own cells funds the transfer. -/
theorem exists_funding_prefix (hnonneg : 0 ≤ feeRate) (h : SubsetFunds options amount feeRate cells)
    (hreach : WithinReach options amount feeRate cells) :
    ∃ k < (ownCells options).length, Funds options amount feeRate ((ownCells options).take (k + 1)) := by
  obtain ⟨k, hlen, hfunds⟩ := hreach.funds hnonneg h.funds
  have hpos := List.length_pos_iff.2 h.ne_nil
  rw [List.length_take] at hlen
  rcases Nat.lt_or_ge (ownCells options).length k with hlt | hle
  · -- beyond their number, `k` takes all own cells
    refine ⟨(ownCells options).length - 1, by omega, ?_⟩
    rwa [Nat.sub_add_cancel (by omega), List.take_length, ← List.take_of_length_le hlt.le]
  · refine ⟨k - 1, by omega, ?_⟩
    rwa [Nat.sub_add_cancel (by omega)]

/-- **Coin selection within the reach of the loop.** When some own cells fund the transfer and are the first
ones in ascending order, or leave a change cell and become the first ones with further cells that pay for
their inputs, the builder does not run out of capacity; it returns as soon as what it serializes is well
formed. -/
theorem buildTransferTransaction_complete
    (hamount : normalizeBigInt options.amount (lit "amount") = .ok amount)
    (hfeeRate : normalizeBigInt (options.feeRate.getD (.bigint defaultFeeRate)) (lit "feeRate") = .ok feeRate)
    (hnonneg : 0 ≤ feeRate) (h : SubsetFunds options amount feeRate cells)
    (hreach : WithinReach options amount feeRate cells) :
    buildTransferTransaction options ≠ .error insufficientCapacityError ∧
      (lockMinimum options.toLock ≤ amount → WellFormedTransfer options amount →
        ∃ r, buildTransferTransaction options = .ok r) := by
  obtain ⟨k, hk, hfunds⟩ := exists_funding_prefix hnonneg h hreach
  constructor
  · intro hinsufficient
    obtain ⟨amount', feeRate', hamount', hfeeRate', hnot⟩ := buildTransferTransaction_insufficient hinsufficient
    obtain rfl : amount = amount' := Result.ok_unique hamount hamount'
    obtain rfl : feeRate = feeRate' := Result.ok_unique hfeeRate hfeeRate'
    exact hnot k hk hfunds
  · intro hminimum hwf
    rcases buildTransferTransaction_outcome hamount hfeeRate hminimum hwf
      (fun k _ => surplus_take_lt hwf hnonneg (k + 1)) with hbuilt | ⟨hnot, -⟩
    · exact hbuilt
    · exact absurd hfunds (hnot k hk)

/-- The plain cell leaves a change cell, and the token cell before it pays for its input. -/
theorem buildTransferTransaction_complete_sampleTransfer :
    SubsetFunds sampleTransfer 10000000000 1000 [plainCell] ∧
      ∃ r, buildTransferTransaction sampleTransfer = .ok r := by
  have hown : (lockedCells sampleTransfer).Perm [tokenCell, plainCell] := by
    rw [← sampleTransfer_ownCells]
    exact (ownCells_perm sampleTransfer).symm
  have htx : hexSize sampleTxHash = 32 := hexValue_length (sampleTransfer_hashes _ (by simp))
  have hchange : lockMinimum (effectiveChangeLock sampleTransfer) ≤
      surplus sampleTransfer 10000000000 1000 [plainCell] := by
    have hminimum : lockMinimum (effectiveChangeLock sampleTransfer) = 7300000000 := by decide +kernel
    have hplain : plainCell.outPoint.txHash = sampleTxHash := rfl
    have htoken : tokenCell.outPoint.txHash = sampleTxHash := rfl
    have hsize : transferSize sampleTransfer [plainCell] = 5555 := by
      refine (transferSize_of_hexSizes sampleTransfer ?_).trans sampleTransfer_sizes.1
      rw [List.map_singleton, List.map_singleton, hplain, htoken]
    simp [hminimum, surplus, transferFee, hsize, plainCell_capacity]
  have hsubset : SubsetFunds sampleTransfer 10000000000 1000 [plainCell] :=
    ⟨by simp, (List.sublist_cons_self _ _).subperm.trans hown.symm.subperm, Or.inr hchange⟩
  have htoken : PaysForInput 1000 tokenCell := by
    have hinput : inputSize tokenCell = 68 := congrArg (36 + ·) htx
    rw [PaysForInput, hinput, tokenCell_capacity]
    decide
  have hreach : WithinReach sampleTransfer 10000000000 1000 [plainCell] := by
    refine ⟨2, [tokenCell], ?_, Or.inr ⟨hchange, by simpa using htoken⟩⟩
    rw [sampleTransfer_ownCells]
    exact List.Perm.swap _ _ _
  exact ⟨hsubset, (buildTransferTransaction_complete rfl rfl (by decide) hsubset hreach).2 (by decide +kernel)
    sampleTransfer_wellFormed⟩

/-! ### Two cells -/

/-- A cell of the sample sender with a given capacity. -/
def capacityCell (capacity : Int) (index : JsString) : LiveCell :=
  { plainCell with outPoint := ⟨sampleTxHash, index⟩, output := ⟨hexQuantity capacity, senderLock, none⟩ }

/-- The sample transfer of 100 CKB from two cells. -/
def pairTransfer (small big feeRate : Int) : BuildTransferOptions :=
  { sampleTransfer with
    cells := [capacityCell small (lit "0x0"), capacityCell big (lit "0x1")]
    feeRate := some (.bigint feeRate) }

section Pair

variable {small big : Int}

theorem capacityCell_read {capacity : Int} (h : 0 ≤ capacity) (index : JsString) :
    hexToBigInt (capacityCell capacity index).output.capacity = .ok capacity := hexToBigInt_hexQuantity h

theorem capacityCell_capacity {capacity : Int} (h : 0 ≤ capacity) (index : JsString) :
    cellCapacity (capacityCell capacity index) = capacity :=
  (hexToBigInt_cellCapacity (capacityCell_read h index)).symm

theorem capacityCell_own (capacity : Int) (index : JsString) :
    sameLock (capacityCell capacity index).output.lock senderLock = true := sameLock_iff.2 rfl

theorem pairTransfer_lockedCells (small big feeRate : Int) : lockedCells (pairTransfer small big feeRate) =
    [capacityCell small (lit "0x0"), capacityCell big (lit "0x1")] := by
  have hfilter : lockedCells (pairTransfer small big feeRate) =
      [capacityCell small (lit "0x0"), capacityCell big (lit "0x1")].filter
        fun cell => sameLock cell.output.lock senderLock := rfl
  rw [hfilter, List.filter_cons, if_pos (capacityCell_own small _), List.filter_cons,
    if_pos (capacityCell_own big _), List.filter_nil]

theorem pairTransfer_ownCells (hsmall : 0 ≤ small) (hle : small ≤ big) (feeRate : Int) :
    ownCells (pairTransfer small big feeRate) =
      [capacityCell small (lit "0x0"), capacityCell big (lit "0x1")] := by
  have hsort : (pairTransfer small big feeRate).cells.insertionSort
      (fun left right => cellCapacity left ≤ cellCapacity right) =
        [capacityCell small (lit "0x0"), capacityCell big (lit "0x1")] := by
    simp [pairTransfer, capacityCell_capacity hsmall, capacityCell_capacity (hsmall.trans hle), hle]
  rw [ownCells, hsort]
  exact pairTransfer_lockedCells small big feeRate

theorem pairTransfer_size (small big feeRate : Int) (cells : List LiveCell) :
    transferSize (pairTransfer small big feeRate) cells = transferSize sampleTransfer cells :=
  transferSize_congr rfl rfl cells

/-- With one input the transfer has 5555 bytes, with two 5623. -/
theorem capacityCell_sizes (capacity capacity' : Int) (index index' : JsString) :
    transferSize sampleTransfer [capacityCell capacity index] = 5555 ∧
      transferSize sampleTransfer [capacityCell capacity index, capacityCell capacity' index'] = 5623 := by
  obtain ⟨hone, htwo, -⟩ := sampleTransfer_sizes
  have htoken : tokenCell.outPoint.txHash = sampleTxHash := rfl
  have hplain : plainCell.outPoint.txHash = sampleTxHash := rfl
  have hcell : ∀ capacity index, (capacityCell capacity index).outPoint.txHash = sampleTxHash := fun _ _ => rfl
  constructor
  · refine (transferSize_of_hexSizes sampleTransfer ?_).trans hone
    rw [List.map_singleton, List.map_singleton, hcell, htoken]
  · refine (transferSize_of_hexSizes sampleTransfer ?_).trans htwo
    rw [List.map_cons, List.map_singleton, List.map_cons, List.map_singleton, hcell, hcell, htoken, hplain]

theorem pairTransfer_wellFormed (hsmall : 0 ≤ small) (hle : small ≤ big) (htotal : small + big < 2 ^ 64)
    (feeRate : Int) : WellFormedTransfer (pairTransfer small big feeRate) 10000000000 := by
  have h := sampleTransfer_wellFormed
  have hbig := hsmall.trans hle
  have hindex : ∀ s ∈ [lit "0x0", lit "0x1"], IsQuantity 32 s := by decide
  have htx : IsHash sampleTxHash := sampleTransfer_hashes _ (by simp)
  have hsum : ((ownCells (pairTransfer small big feeRate)).map cellCapacity).sum < 2 ^ 64 := by
    rw [pairTransfer_ownCells hsmall hle]
    simpa [capacityCell_capacity hsmall, capacityCell_capacity hbig] using htotal
  have hsize : transferSize (pairTransfer small big feeRate) (ownCells (pairTransfer small big feeRate)) +
      changeOutputSize (effectiveChangeLock sampleTransfer) < 2 ^ 32 := by
    rw [pairTransfer_ownCells hsmall hle, pairTransfer_size, (capacityCell_sizes _ _ _ _).2,
      sampleTransfer_sizes.2.2]
    decide
  refine ⟨h.cellDep, ?_, ?_, h.toLock, h.changeLock, h.amount_nonneg, h.amount_lt, hsum, hsize⟩ <;>
    intro cell hcell <;>
    simp only [pairTransfer, List.mem_cons, List.not_mem_nil, or_false] at hcell <;>
    rcases hcell with rfl | rfl
  · exact ⟨htx, hindex (lit "0x0") (by simp)⟩
  · exact ⟨htx, hindex (lit "0x1") (by simp)⟩
  · rw [capacityCell_read hsmall, capacityCell_capacity hsmall]
  · rw [capacityCell_read hbig, capacityCell_capacity hbig]

theorem pairTransfer_lockMinimum (small big feeRate : Int) :
    lockMinimum (effectiveChangeLock (pairTransfer small big feeRate)) = 7300000000 := by
  have hargs : hexSize senderLock.args = 32 := by decide +kernel
  have hlock : effectiveChangeLock (pairTransfer small big feeRate) = senderLock := rfl
  rw [hlock, lockMinimum, hargs]
  decide

/-- What `left` shannons beyond the amount and the fee are enough for. -/
def Enough (left : Int) : Prop := left = 0 ∨ 7300000000 ≤ left

instance (left : Int) : Decidable (Enough left) := inferInstanceAs (Decidable (_ ∨ _))

theorem pairTransfer_funds_one {capacity : Int} (h : 0 ≤ capacity) (small big feeRate : Int) (index : JsString) :
    Funds (pairTransfer small big feeRate) 10000000000 feeRate [capacityCell capacity index] ↔
      Enough (capacity - 10000000000 - (5555 * feeRate + 999).tdiv 1000) := by
  rw [Funds, pairTransfer_lockMinimum, surplus, transferFee, pairTransfer_size,
    (capacityCell_sizes capacity 0 index []).1, List.map_singleton, List.sum_singleton, capacityCell_capacity h]
  rfl

theorem pairTransfer_funds_two {capacity capacity' : Int} (h : 0 ≤ capacity) (h' : 0 ≤ capacity')
    (small big feeRate : Int) (index index' : JsString) :
    Funds (pairTransfer small big feeRate) 10000000000 feeRate
        [capacityCell capacity index, capacityCell capacity' index'] ↔
      Enough (capacity + capacity' - 10000000000 - (5623 * feeRate + 999).tdiv 1000) := by
  rw [Funds, pairTransfer_lockMinimum, surplus, transferFee, pairTransfer_size,
    (capacityCell_sizes capacity capacity' index index').2, List.map_cons, List.map_singleton, List.sum_cons,
    List.sum_singleton, capacityCell_capacity h, capacityCell_capacity h']
  rfl

/-- The own cells are distinct, well formed and hold at least the minimum of their lock. -/
structure ProperCells (options : BuildTransferOptions) : Prop where
  outPoints : ∀ cell ∈ lockedCells options, cell.outPoint.WellFormed
  nodup : ((lockedCells options).map LiveCell.outPoint).Nodup
  minimum : ∀ cell ∈ lockedCells options, lockMinimum options.fromLock ≤ cellCapacity cell

theorem pairTransfer_proper (hsmall : 7300000000 ≤ small) (hle : small ≤ big) (htotal : small + big < 2 ^ 64)
    (feeRate : Int) : ProperCells (pairTransfer small big feeRate) := by
  have hwf := pairTransfer_wellFormed (by omega) hle htotal feeRate
  refine ⟨fun cell hcell => hwf.outPoints cell (List.mem_of_mem_filter hcell), ?_, ?_⟩
  · rw [pairTransfer_lockedCells]
    have hne : lit "0x0" ≠ lit "0x1" := by decide
    simp [capacityCell, hne]
  · have hminimum : lockMinimum (pairTransfer small big feeRate).fromLock = 7300000000 :=
      pairTransfer_lockMinimum small big feeRate
    rw [pairTransfer_lockedCells, hminimum]
    intro cell hcell
    rcases List.mem_cons.1 hcell with rfl | hcell
    · rwa [capacityCell_capacity (by omega)]
    · rw [List.mem_singleton.1 hcell, capacityCell_capacity (by omega)]
      omega

/-- The transfer is rejected although the bigger cell alone funds it. -/
structure Overlooked (small big feeRate : Int) : Prop where
  recipient : lockMinimum (pairTransfer small big feeRate).toLock ≤ 10000000000
  wellFormed : WellFormedTransfer (pairTransfer small big feeRate) 10000000000
  proper : ProperCells (pairTransfer small big feeRate)
  fundable : SubsetFunds (pairTransfer small big feeRate) 10000000000 feeRate [capacityCell big (lit "0x1")]
  rejected : buildTransferTransaction (pairTransfer small big feeRate) = .error insufficientCapacityError

theorem overlooked_of (hsmall : 7300000000 ≤ small) (hle : small ≤ big) (htotal : small + big < 2 ^ 64)
    (hnonneg : 0 ≤ feeRate) (hbig : Enough (big - 10000000000 - (5555 * feeRate + 999).tdiv 1000))
    (hone : ¬ Enough (small - 10000000000 - (5555 * feeRate + 999).tdiv 1000))
    (htwo : ¬ Enough (small + big - 10000000000 - (5623 * feeRate + 999).tdiv 1000)) :
    Overlooked small big feeRate := by
  have hpos : 0 ≤ small := by omega
  have hwf := pairTransfer_wellFormed hpos hle htotal feeRate
  have hrecipient : lockMinimum recipientLock ≤ 10000000000 := by decide +kernel
  refine ⟨hrecipient, hwf, pairTransfer_proper hsmall hle htotal feeRate, ⟨by simp, ?_, ?_⟩, ?_⟩
  · rw [pairTransfer_lockedCells]
    exact (List.sublist_cons_self _ _).subperm
  · rwa [pairTransfer_funds_one (hpos.trans hle)]
  · have hnone : ∀ k < (ownCells (pairTransfer small big feeRate)).length, ¬ Funds (pairTransfer small big feeRate)
        10000000000 feeRate ((ownCells (pairTransfer small big feeRate)).take (k + 1)) := by
      rw [pairTransfer_ownCells hpos hle]
      intro k hk
      match k, hk with
      | 0, _ =>
        rw [← pairTransfer_funds_one hpos small big feeRate (lit "0x0")] at hone
        exact hone
      | 1, _ =>
        rw [← pairTransfer_funds_two hpos (hpos.trans hle) small big feeRate (lit "0x0") (lit "0x1")] at htwo
        exact htwo
    have hamount : normalizeBigInt (pairTransfer small big feeRate).amount (lit "amount") = .ok 10000000000 := rfl
    have hrate : normalizeBigInt ((pairTransfer small big feeRate).feeRate.getD (.bigint defaultFeeRate))
        (lit "feeRate") = .ok feeRate := rfl
    rcases buildTransferTransaction_outcome hamount hrate hrecipient hwf
      (fun k _ => surplus_take_lt hwf hnonneg (k + 1)) with ⟨r, hr⟩ | ⟨-, hrejected⟩
    · obtain ⟨amount, feeRate', cells, plan⟩ := buildTransferTransaction_plan hr
      obtain rfl : 10000000000 = amount := Except.ok.inj plan.amount_eq
      obtain rfl : feeRate = feeRate' := Except.ok.inj plan.feeRate_eq
      obtain ⟨k, hk, rfl, hfunds, -⟩ := plan.funding
      exact absurd hfunds (hnone k hk)
    · exact hrejected

end Pair

/-- **Fundable transfers that are rejected.** With cells of 73 CKB and of exactly the amount and the fee of
one input, the second cell alone funds the transfer without change, but the loop takes the first one
before it, and the change that is left falls 68 shannons short of a cell. At 2 CKB per byte the input of
the smaller cell costs more than the cell holds. -/
theorem fundable_rejected : Overlooked 7300000000 10000005555 1000 ∧
    Overlooked 7300000000 1128300000000 200000000000 := by
  refine ⟨overlooked_of ?_ ?_ ?_ ?_ ?_ ?_ ?_, overlooked_of ?_ ?_ ?_ ?_ ?_ ?_ ?_⟩ <;> decide

end CkbDilithium.Sdk
