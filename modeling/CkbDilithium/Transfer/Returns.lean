import CkbDilithium.Transfer.Plan

/-!
# Transfers that can be funded are built

The converse of the plan: when everything a transfer serializes is well formed and fits its fields,
every prefix of the own cells can be tried (`attempt_returns`), so that the transfer is returned when
there is a funding prefix and rejected for insufficient capacity when there is none
(`buildTransferTransaction_outcome`).
-/

namespace CkbDilithium.Sdk

open Js

/-! ### Well-formed transfers -/

/-- Everything a transfer serializes is well formed and fits its fields. -/
structure WellFormedTransfer (options : BuildTransferOptions) (amount : Int) : Prop where
  cellDep : options.scriptConfig.cellDep.outPoint.WellFormed
  outPoints : ∀ cell ∈ options.cells, cell.outPoint.WellFormed
  capacities : ∀ cell ∈ options.cells, hexToBigInt cell.output.capacity = .ok (cellCapacity cell)
  toLock : options.toLock.WellFormed
  changeLock : (effectiveChangeLock options).WellFormed
  amount_nonneg : 0 ≤ amount
  amount_lt : amount < 2 ^ 64
  total_lt : ((ownCells options).map cellCapacity).sum < 2 ^ 64
  size_lt : transferSize options (ownCells options) + changeOutputSize (effectiveChangeLock options) < 2 ^ 32

theorem isQuantity_hexQuantity {v : Int} (hnonneg : 0 ≤ v) (hlt : v < 2 ^ 64) : IsQuantity 64 (hexQuantity v) := by
  obtain ⟨n, rfl⟩ := Int.eq_ofNat_of_zero_le hnonneg
  refine ⟨toRadix 16 n, by rw [hexQuantity, Int.toNat_natCast], hexString_toRadix n, ?_⟩
  have hparse := parseDigits_toRadix n
  rw [parseDigits_of_ne_nil (toRadix_ne_nil 16 n)] at hparse
  rw [quantityValue, hexQuantity, Int.toNat_natCast, drop_hexPrefix, hparse, Option.getD_some]
  exact_mod_cast hlt

theorem isQuantity_zero (bits : Nat) : IsQuantity bits (lit "0x0") :=
  ⟨lit "0", by decide, by decide, Nat.two_pow_pos bits⟩

theorem isHex_emptyHex : IsHex (lit "0x") := by decide

theorem minimumCellCapacity_returns {lock : LockScript} (h : IsHex lock.args) :
    minimumCellCapacity lock (lit "0x") none = .ok (lockMinimum lock) := by
  have hreturns : ∃ v, minimumCellCapacity lock (lit "0x") none = .ok v := by
    simp only [minimumCellCapacity, hexToBytes_of_isHex h, hexToBytes_emptyHex, Result.ok_bind]
    exact ⟨_, rfl⟩
  obtain ⟨v, hv⟩ := hreturns
  rw [hv, minimumCellCapacity_eq hv]

theorem tentativeTransaction_wellFormed {options : BuildTransferOptions} {cells : List LiveCell}
    {outputs : List CellOutput} (hdep : options.scriptConfig.cellDep.outPoint.WellFormed)
    (hcells : ∀ cell ∈ cells, cell.outPoint.WellFormed) (houtputs : ∀ output ∈ outputs, output.WellFormed) :
    (tentativeTransaction options cells outputs).WellFormed := by
  refine ⟨isQuantity_zero 32, ?_, ?_, ?_, houtputs, ?_⟩
  · simpa [tentativeTransaction] using hdep
  · simp [tentativeTransaction]
  · intro input hinput
    obtain ⟨cell, hcell, rfl⟩ := List.mem_map.1 hinput
    exact ⟨isQuantity_zero 64, hcells cell hcell⟩
  · intro data hdata
    rw [List.mem_singleton.1 hdata]
    exact isHex_emptyHex

theorem recipientOutput_wellFormed {options : BuildTransferOptions} {amount : Int} (h : options.toLock.WellFormed)
    (hnonneg : 0 ≤ amount) (hlt : amount < 2 ^ 64) : (recipientOutput options amount).WellFormed :=
  ⟨isQuantity_hexQuantity hnonneg hlt, h, fun _ hnone => absurd hnone (by simp [recipientOutput])⟩

theorem changeOutputs_wellFormed {options : BuildTransferOptions} {change : Int}
    (h : (effectiveChangeLock options).WellFormed) (hlt : change < 2 ^ 64) :
    ∀ output ∈ changeOutputs options change, output.WellFormed := by
  intro output houtput
  unfold changeOutputs at houtput
  split_ifs at houtput with hpos
  · rw [List.mem_singleton.1 houtput]
    exact ⟨isQuantity_hexQuantity (by omega) hlt, h, fun _ hnone => absurd hnone (by simp)⟩
  · simp at houtput

theorem finalizeOutputs_returns (outputs : List CellOutput) (outputsData : List JsString) (change : Int)
    (lock : LockScript) : ∃ finalized, finalizeOutputs outputs outputsData change lock = .ok finalized := by
  unfold finalizeOutputs
  split_ifs with hpos
  · simp only [toHexQuantity, bigIntToHexQuantity_eq_ok.2 ⟨hpos.le, rfl⟩, Result.ok_bind]
    exact ⟨_, rfl⟩
  · exact ⟨_, rfl⟩

theorem plannedTransaction_wellFormed {options : BuildTransferOptions} {amount feeRate : Int}
    {cells : List LiveCell} (h : WellFormedTransfer options amount) (hcells : ∀ cell ∈ cells, cell ∈ options.cells)
    (hsurplus : surplus options amount feeRate cells < 2 ^ 64) :
    (plannedTransaction options amount feeRate cells).WellFormed := by
  have hbase : (tentativeTransaction options cells (recipientOutput options amount ::
      changeOutputs options (surplus options amount feeRate cells))).WellFormed := by
    refine tentativeTransaction_wellFormed h.cellDep (fun cell hcell => h.outPoints cell (hcells cell hcell)) ?_
    intro output houtput
    rcases List.mem_cons.1 houtput with rfl | houtput
    · exact recipientOutput_wellFormed h.toLock h.amount_nonneg h.amount_lt
    · exact changeOutputs_wellFormed h.changeLock hsurplus output houtput
  refine ⟨hbase.version, hbase.cellDeps, hbase.headerDeps, hbase.inputs, hbase.outputs, ?_⟩
  intro data hdata
  have hempty : data = lit "0x" := by
    rcases List.mem_cons.1 hdata with rfl | hdata
    · rfl
    · obtain ⟨_, -, rfl⟩ := List.mem_map.1 hdata
      rfl
  rw [hempty]
  exact isHex_emptyHex

/-- One round returns when its transactions are well formed and fit. -/
theorem tryTransfer_returns {options : BuildTransferOptions} {amount feeRate : Int} {cells : List LiveCell}
    (hne : cells ≠ []) (h : WellFormedTransfer options amount) (hcells : ∀ cell ∈ cells, cell ∈ options.cells)
    (hsize : transferSize options cells + changeOutputSize (effectiveChangeLock options) < 2 ^ 32)
    (hsurplus : surplus options amount feeRate cells < 2 ^ 64) :
    ∃ o, tryTransfer options amount feeRate (effectiveChangeLock options) cells (cells.map cellCapacity).sum =
      .ok o := by
  have hcount := List.length_pos_iff.2 hne
  have htentative : (tentativeTransaction options cells [recipientOutput options amount]).WellFormed :=
    tentativeTransaction_wellFormed h.cellDep (fun cell hcell => h.outPoints cell (hcells cell hcell))
      (List.forall_mem_singleton.2 (recipientOutput_wellFormed h.toLock h.amount_nonneg h.amount_lt))
  have hestimate := estimateTransactionSize_returns hcount htentative (by
    rw [tentativeTransaction_size options cells _ ⟨rfl, rfl⟩]
    omega)
  have hfee : estimateTransactionFee (tentativeTransaction options cells [recipientOutput options amount]) feeRate
      cells.length = .ok (transferFee options feeRate cells) := by
    rw [estimateTransactionFee, hestimate, Result.ok_bind, tentativeTransaction_size options cells _ ⟨rfl, rfl⟩]
    rfl
  have hamount : bigIntToHexQuantity amount = .ok (hexQuantity amount) :=
    bigIntToHexQuantity_eq_ok.2 ⟨h.amount_nonneg, rfl⟩
  simp only [tryTransfer, toHexQuantity, hamount, Result.ok_bind]
  rw [← recipientOutput, hfee, Result.ok_bind, ← surplus]
  by_cases hneg : surplus options amount feeRate cells < 0
  · rw [if_pos hneg]
    exact ⟨none, rfl⟩
  rw [if_neg hneg, minimumCellCapacity_returns h.changeLock.args, Result.ok_bind]
  split_ifs with hsmall
  · exact ⟨none, rfl⟩
  obtain ⟨⟨outputs, outputsData, change⟩, hfinalized⟩ := finalizeOutputs_returns [recipientOutput options amount]
    (tentativeTransaction options cells [recipientOutput options amount]).outputsData
    (surplus options amount feeRate cells) (effectiveChangeLock options)
  obtain ⟨hraw, -⟩ := finalizeOutputs_planned hneg hfinalized
  obtain ⟨n, hn⟩ := Nat.exists_eq_succ_of_ne_zero hcount.ne'
  have hplanned := estimateTransactionSize_returns hcount (plannedTransaction_wellFormed h hcells hsurplus) (by
    rw [plannedTransaction_size]
    split_ifs <;> omega)
  rw [hn] at hplanned
  simp only [hfinalized, Result.ok_bind, hraw, hn, hplanned, withPlaceholderWitnesses_succ]
  exact ⟨_, rfl⟩

/-! ### The whole transfer -/

theorem ownCells_subset (options : BuildTransferOptions) : ∀ cell ∈ ownCells options, cell ∈ options.cells := by
  intro cell hcell
  exact (List.mem_insertionSort _).1 (List.mem_of_mem_filter hcell)

/-- What is selected does not exceed what there is. -/
theorem sum_take_le {cells : List LiveCell} (h : ∀ cell ∈ cells, 0 ≤ cellCapacity cell) (k : Nat) :
    ((cells.take k).map cellCapacity).sum ≤ (cells.map cellCapacity).sum := by
  conv_rhs => rw [← List.take_append_drop k cells]
  rw [List.map_append, List.sum_append]
  have hrest : 0 ≤ ((cells.drop k).map cellCapacity).sum := by
    refine List.sum_nonneg fun v hv => ?_
    obtain ⟨cell, hcell, rfl⟩ := List.mem_map.1 hv
    exact h cell (List.mem_of_mem_drop hcell)
  omega

theorem transferSize_take_le (options : BuildTransferOptions) (cells : List LiveCell) (k : Nat) :
    transferSize options (cells.take k) ≤ transferSize options cells := by
  have hsum : ((cells.take k).map fun cell => 36 + hexSize cell.outPoint.txHash).sum ≤
      (cells.map fun cell => 36 + hexSize cell.outPoint.txHash).sum := by
    conv_rhs => rw [← List.take_append_drop k cells]
    rw [List.map_append, List.sum_append]
    omega
  unfold transferSize
  omega

theorem transferFee_nonneg (options : BuildTransferOptions) {feeRate : Int} (h : 0 ≤ feeRate)
    (cells : List LiveCell) : 0 ≤ transferFee options feeRate cells := by
  unfold transferFee
  exact Int.tdiv_nonneg (by positivity) (by decide)

/-- A prefix of the own cells can be tried when what it leaves fits its field. -/
theorem attempt_returns {options : BuildTransferOptions} {amount feeRate : Int}
    (h : WellFormedTransfer options amount) {k : Nat} (hk : k < (ownCells options).length)
    (hsurplus : surplus options amount feeRate ((ownCells options).take (k + 1)) < 2 ^ 64) :
    ∃ o, attempt options amount feeRate ((ownCells options).take (k + 1)) = .ok o := by
  have hcells : ∀ cell ∈ (ownCells options).take (k + 1), cell ∈ options.cells := fun cell hcell =>
    ownCells_subset options cell (List.mem_of_mem_take hcell)
  have hcapacities : (((ownCells options).take (k + 1)).mapM fun cell => hexToBigInt cell.output.capacity) =
      .ok (((ownCells options).take (k + 1)).map cellCapacity) :=
    Result.mapM_of_forall_ok fun cell hcell => h.capacities cell (hcells cell hcell)
  rw [attempt, hcapacities, Result.ok_bind]
  refine tryTransfer_returns (Result.take_succ_ne_nil hk) h hcells ?_ hsurplus
  have := transferSize_take_le options (ownCells options) (k + 1)
  have := h.size_lt
  omega

/-- At a rate that is not negative no prefix leaves more than it holds. -/
theorem surplus_take_lt {options : BuildTransferOptions} {amount feeRate : Int}
    (h : WellFormedTransfer options amount) (hfeeRate : 0 ≤ feeRate) (k : Nat) :
    surplus options amount feeRate ((ownCells options).take k) < 2 ^ 64 := by
  have hnonneg : ∀ cell ∈ ownCells options, 0 ≤ cellCapacity cell := fun cell hcell =>
    hexToBigInt_nonneg (h.capacities cell (ownCells_subset options cell hcell))
  have := sum_take_le hnonneg k
  have := transferFee_nonneg options hfeeRate ((ownCells options).take k)
  have := h.total_lt
  have := h.amount_nonneg
  unfold surplus
  omega

theorem sortByCapacity_returns {cells : List LiveCell}
    (h : ∀ cell ∈ cells, hexToBigInt cell.output.capacity = .ok (cellCapacity cell)) :
    ∃ sorted, sortByCapacity cells = .ok sorted := by
  unfold sortByCapacity
  split_ifs
  · exact ⟨_, rfl⟩
  · have hkey : ∀ cell ∈ cells, ∃ keyed, (do pure ((← hexToBigInt cell.output.capacity), cell) :
        Js (Int × LiveCell)) = .ok keyed := by
      intro cell hcell
      rw [h cell hcell, Result.ok_bind]
      exact ⟨_, rfl⟩
    obtain ⟨keyed, hkeyed⟩ := Result.mapM_returns hkey
    rw [hkeyed, Result.ok_bind]
    exact ⟨_, rfl⟩

/-- The search comes to nothing: the builder throws its last error. -/
theorem buildTransferTransaction_of_none {options : BuildTransferOptions} {amount feeRate : Int}
    {sorted : List LiveCell} (hamount : normalizeBigInt options.amount (lit "amount") = .ok amount)
    (hfeeRate : normalizeBigInt (options.feeRate.getD (.bigint defaultFeeRate)) (lit "feeRate") = .ok feeRate)
    (hrecipient : minimumCellCapacity options.toLock (lit "0x") none = .ok (lockMinimum options.toLock))
    (hminimum : lockMinimum options.toLock ≤ amount) (hsorted : sortByCapacity options.cells = .ok sorted)
    (hnone : Result.firstPrefix (attempt options amount feeRate) [] (ownCells options) = .ok none) :
    buildTransferTransaction options =
      .error (.error (lit "insufficient capacity to build transfer transaction")) := by
  have hselect : selectCells options amount feeRate (options.changeLock.getD options.fromLock) sorted [] 0 =
      .ok none := by
    rw [sortByCapacity_eq_ok hsorted]
    exact (selectCells_start options amount feeRate _).trans hnone
  simp only [buildTransferTransaction, hamount, hfeeRate, hrecipient, hsorted, hselect, Result.ok_bind,
    if_neg (not_lt.2 hminimum)]
  rfl

/-- **A well-formed transfer is built when some prefix of the own cells funds it, and is otherwise
rejected for insufficient capacity.** -/
theorem buildTransferTransaction_outcome {options : BuildTransferOptions} {amount feeRate : Int}
    (hamount : normalizeBigInt options.amount (lit "amount") = .ok amount)
    (hfeeRate : normalizeBigInt (options.feeRate.getD (.bigint defaultFeeRate)) (lit "feeRate") = .ok feeRate)
    (hminimum : lockMinimum options.toLock ≤ amount) (h : WellFormedTransfer options amount)
    (hsurplus : ∀ k < (ownCells options).length,
      surplus options amount feeRate ((ownCells options).take (k + 1)) < 2 ^ 64) :
    (∃ r, buildTransferTransaction options = .ok r) ∨
      ((∀ k < (ownCells options).length, ¬ Funds options amount feeRate ((ownCells options).take (k + 1))) ∧
        buildTransferTransaction options =
          .error (.error (lit "insufficient capacity to build transfer transaction"))) := by
  have hrecipient := minimumCellCapacity_returns h.toLock.args
  obtain ⟨sorted, hsorted⟩ := sortByCapacity_returns h.capacities
  have htried : ∀ k < (ownCells options).length,
      ∃ o, attempt options amount feeRate ([] ++ (ownCells options).take (k + 1)) = .ok o := by
    intro k hk
    rw [List.nil_append]
    exact attempt_returns h hk (hsurplus k hk)
  obtain ⟨o, hfirst⟩ := Result.firstPrefix_returns htried
  cases o with
  | some r =>
    exact Or.inl ⟨r, buildTransferTransaction_eq_ok.2 ⟨amount, feeRate, sorted, hamount, hfeeRate, hrecipient,
      hminimum, hsorted, hfirst⟩⟩
  | none =>
    refine Or.inr ⟨fun k hk => ?_,
      buildTransferTransaction_of_none hamount hfeeRate hrecipient hminimum hsorted hfirst⟩
    have hnone := Result.firstPrefix_eq_none.1 hfirst k hk
    rw [List.nil_append] at hnone
    obtain ⟨-, ⟨-, hnot⟩ | ⟨_, hsome, -⟩⟩ := attempt_eq_ok (Result.take_succ_ne_nil hk) hnone
    · exact hnot
    · exact absurd hsome (by simp)

/-- **A transfer that some prefix funds is built.** -/
theorem buildTransferTransaction_returns {options : BuildTransferOptions} {amount feeRate : Int}
    {cells : List LiveCell} (hamount : normalizeBigInt options.amount (lit "amount") = .ok amount)
    (hfeeRate : normalizeBigInt (options.feeRate.getD (.bigint defaultFeeRate)) (lit "feeRate") = .ok feeRate)
    (hnonneg : 0 ≤ feeRate) (hminimum : lockMinimum options.toLock ≤ amount)
    (h : WellFormedTransfer options amount) (hfunding : FundingPrefix options amount feeRate cells) :
    ∃ r, buildTransferTransaction options = .ok r := by
  obtain ⟨k, hk, rfl, hfunds, -⟩ := hfunding
  rcases buildTransferTransaction_outcome hamount hfeeRate hminimum h
    (fun k _ => surplus_take_lt h hnonneg (k + 1)) with hbuilt | ⟨hnot, -⟩
  · exact hbuilt
  · exact absurd hfunds (hnot k hk)

end CkbDilithium.Sdk
