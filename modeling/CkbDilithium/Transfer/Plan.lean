import CkbDilithium.Transfer.Placeholder

/-!
# What a transfer plans

The selection as a specification: the own cells in ascending order of capacity are taken up to the
first prefix that funds the transfer (`FundingPrefix`), where the surplus over the amount and the fee
of the transaction without change is zero or enough for a change cell (`Funds`). Whatever
`buildTransferTransaction` returns is the transfer of that prefix (`buildTransferTransaction_plan`).
-/

namespace CkbDilithium.Sdk

open Js

/-! ### The specification -/

/-- The capacity of a cell. -/
def cellCapacity (cell : LiveCell) : Int := (hexToBigInt cell.output.capacity).toOption.getD 0

/-- Cells with the lock of the sender, by ascending capacity; equal capacities keep their order. -/
def ownCells (options : BuildTransferOptions) : List LiveCell :=
  (options.cells.insertionSort fun left right => cellCapacity left ≤ cellCapacity right).filter
    fun cell => sameLock cell.output.lock options.fromLock

def effectiveChangeLock (options : BuildTransferOptions) : LockScript := options.changeLock.getD options.fromLock

/-- The least capacity of a cell with the lock and no data. -/
def lockMinimum (lock : LockScript) : Int := (41 + hexSize lock.args) * 100000000

/-- The serialized size of the transfer of the cells without a change output. -/
def transferSize (options : BuildTransferOptions) (cells : List LiveCell) : Nat :=
  5403 + hexSize options.scriptConfig.cellDep.outPoint.txHash +
    (cells.map fun cell => 36 + hexSize cell.outPoint.txHash).sum +
    hexSize options.toLock.codeHash + hexSize options.toLock.args

/-- What a change output adds to the serialized size: the output, its data and two offsets. -/
def changeOutputSize (lock : LockScript) : Nat := 57 + hexSize lock.codeHash + hexSize lock.args

section Plan

variable (options : BuildTransferOptions) (amount feeRate : Int)

def transferFee (cells : List LiveCell) : Int :=
  (transferSize options cells * feeRate + 999).tdiv 1000

/-- What is left of the cells after the amount and the fee. -/
def surplus (cells : List LiveCell) : Int :=
  (cells.map cellCapacity).sum - amount - transferFee options feeRate cells

/-- The cells pay for the amount and the fee, and what is left over is nothing or a change cell. -/
def Funds (cells : List LiveCell) : Prop :=
  surplus options amount feeRate cells = 0 ∨
    lockMinimum (effectiveChangeLock options) ≤ surplus options amount feeRate cells

instance (cells : List LiveCell) : Decidable (Funds options amount feeRate cells) :=
  inferInstanceAs (Decidable (_ ∨ _))

/-- The first prefix of the own cells that funds the transfer. -/
def FundingPrefix (cells : List LiveCell) : Prop :=
  ∃ k < (ownCells options).length, cells = (ownCells options).take (k + 1) ∧
    Funds options amount feeRate cells ∧
    ∀ j < k, ¬ Funds options amount feeRate ((ownCells options).take (j + 1))

def recipientOutput : CellOutput := { capacity := hexQuantity amount, lock := options.toLock, type := none }

/-- No output for a surplus of zero. -/
def changeOutputs (change : Int) : List CellOutput :=
  if change > 0 then
    [{ capacity := hexQuantity change, lock := effectiveChangeLock options, type := none }]
  else []

/-- The planned transaction of the cells. -/
def plannedTransaction (cells : List LiveCell) : RawTransaction :=
  let change := surplus options amount feeRate cells
  { tentativeTransaction options cells (recipientOutput options amount :: changeOutputs options change) with
    outputsData := lit "0x" :: (changeOutputs options change).map fun _ => lit "0x" }

/-- The result describes the planned transaction of the cells. -/
structure Planned (cells : List LiveCell) (r : UnsignedTransferTransaction) : Prop where
  changeMinimum : minimumCellCapacity (effectiveChangeLock options) (lit "0x") none =
    .ok (lockMinimum (effectiveChangeLock options))
  selectedCells : r.selectedCells = cells
  rawTransaction : r.rawTransaction = plannedTransaction options amount feeRate cells
  placeholder : withPlaceholderWitnesses r.rawTransaction cells.length = .ok r.placeholderTransaction
  fee : r.fee = transferFee options feeRate cells
  inputCapacity : r.inputCapacity = (cells.map cellCapacity).sum
  changeCapacity : r.changeCapacity = surplus options amount feeRate cells
  outputCapacity : r.outputCapacity = amount + surplus options amount feeRate cells
  txSize : r.txSize = transferSize options cells +
    if surplus options amount feeRate cells > 0 then changeOutputSize (effectiveChangeLock options) else 0

end Plan

/-! ### What the options contribute -/

theorem ownCells_congr {options options' : BuildTransferOptions} (hcells : options.cells = options'.cells)
    (hlock : options.fromLock = options'.fromLock) : ownCells options = ownCells options' := by
  rw [ownCells, ownCells, hcells, hlock]

theorem transferSize_congr {options options' : BuildTransferOptions}
    (hdep : options.scriptConfig = options'.scriptConfig) (hlock : options.toLock = options'.toLock)
    (cells : List LiveCell) : transferSize options cells = transferSize options' cells := by
  rw [transferSize, transferSize, hdep, hlock]

/-- The cells contribute the sizes of their transaction hashes. -/
theorem transferSize_of_hexSizes (options : BuildTransferOptions) {cells cells' : List LiveCell}
    (h : (cells.map fun cell => hexSize cell.outPoint.txHash) =
      cells'.map fun cell => hexSize cell.outPoint.txHash) :
    transferSize options cells = transferSize options cells' := by
  have hsum : ∀ cells : List LiveCell, (cells.map fun cell => 36 + hexSize cell.outPoint.txHash) =
      (cells.map fun cell => hexSize cell.outPoint.txHash).map (36 + ·) := by
    intro cells
    rw [List.map_map]
    rfl
  rw [transferSize, transferSize, hsum cells, hsum cells', h]

/-! ### Uniqueness -/

theorem FundingPrefix.unique {options : BuildTransferOptions} {amount feeRate : Int} {cells cells' : List LiveCell}
    (h : FundingPrefix options amount feeRate cells) (h' : FundingPrefix options amount feeRate cells') :
    cells = cells' := by
  obtain ⟨k, -, rfl, hfunds, hbefore⟩ := h
  obtain ⟨k', -, rfl, hfunds', hbefore'⟩ := h'
  rcases lt_trichotomy k k' with hlt | rfl | hlt
  · exact absurd hfunds (hbefore' k hlt)
  · rfl
  · exact absurd hfunds' (hbefore k' hlt)

/-! ### One round -/

theorem sameLock_iff {left right : LockScript} : sameLock left right = true ↔ left = right := by
  obtain ⟨c, h, a⟩ := left
  obtain ⟨c', h', a'⟩ := right
  simp [sameLock, and_assoc]

theorem hexToBytes_emptyHex : hexToBytes (lit "0x") = .ok [] := by decide

theorem minimumCellCapacity_eq {lock : LockScript} {v : Int}
    (h : minimumCellCapacity lock (lit "0x") none = .ok v) : v = lockMinimum lock := by
  simp only [minimumCellCapacity, Result.bind_eq_ok, Result.pure_eq_ok, hexToBytes_emptyHex,
    Except.ok.injEq] at h
  obtain ⟨args, hargs, _, rfl, _, rfl, rfl⟩ := h
  rw [lockMinimum, hexToBytes_hexSize hargs, cellOutputBase, scriptSizeBase, shannonsPerCkb, List.length_nil]
  push_cast
  ring

theorem lockMinimum_pos (lock : LockScript) : 0 < lockMinimum lock := by
  unfold lockMinimum
  positivity

theorem hexSize_emptyHex : hexSize (lit "0x") = 0 := by decide

theorem tentativeTransaction_size (options : BuildTransferOptions) (cells : List LiveCell) (output : CellOutput)
    (houtput : output.lock = options.toLock ∧ output.type = none) :
    (tentativeTransaction options cells [output]).size + 24 * cells.length + 5289 =
      transferSize options cells := by
  have hinputs : (cells.map fun cell => 12 + hexSize cell.outPoint.txHash).sum + 24 * cells.length =
      (cells.map fun cell => 36 + hexSize cell.outPoint.txHash).sum := by
    rw [List.sum_map_add, List.sum_map_add, List.map_const', List.map_const', List.sum_replicate,
      List.sum_replicate, smul_eq_mul, smul_eq_mul]
    omega
  simp only [RawTransaction.size, tentativeTransaction, List.map_cons, List.map_nil, List.sum_cons, List.sum_nil,
    List.map_map, Function.comp_def, cellOutputSize, houtput.1, houtput.2, Option.map_none, Option.getD_none,
    scriptSize, List.length_cons, List.length_nil, hexSize_emptyHex, transferSize]
  omega

theorem estimateTransactionFee_eq {options : BuildTransferOptions} {amount feeRate fee : Int}
    {cells : List LiveCell} (hne : cells ≠ [])
    (h : estimateTransactionFee (tentativeTransaction options cells [recipientOutput options amount]) feeRate
      cells.length = .ok fee) : fee = transferFee options feeRate cells := by
  simp only [estimateTransactionFee, Result.bind_eq_ok, Result.pure_eq_ok] at h
  obtain ⟨size, hsize, rfl⟩ := h
  rw [estimateTransactionSize_eq (List.length_pos_iff.2 hne) hsize,
    tentativeTransaction_size options cells _ ⟨rfl, rfl⟩, transferFee]

/-- The size with the outputs of the plan. -/
theorem plannedTransaction_size (options : BuildTransferOptions) (amount feeRate : Int) (cells : List LiveCell) :
    (plannedTransaction options amount feeRate cells).size + 24 * cells.length + 5289 =
      transferSize options cells + if surplus options amount feeRate cells > 0 then
        changeOutputSize (effectiveChangeLock options) else 0 := by
  have htentative := tentativeTransaction_size options cells (recipientOutput options amount) ⟨rfl, rfl⟩
  rw [← htentative]
  split_ifs with hchange
  · simp only [RawTransaction.size, plannedTransaction, tentativeTransaction, changeOutputs, if_pos hchange,
      List.map_cons, List.map_nil, List.sum_cons, List.sum_nil, cellOutputSize, scriptSize, Option.map_none,
      Option.getD_none, List.length_cons, List.length_nil, hexSize_emptyHex, changeOutputSize]
    omega
  · simp only [plannedTransaction, changeOutputs, if_neg hchange, List.map_nil]
    rfl

/-- The finalized outputs make the transaction the planned one. -/
theorem finalizeOutputs_planned {options : BuildTransferOptions} {amount feeRate change : Int}
    {cells : List LiveCell} {outputs : List CellOutput} {outputsData : List JsString}
    (hneg : ¬ surplus options amount feeRate cells < 0)
    (h : finalizeOutputs [recipientOutput options amount]
      (tentativeTransaction options cells [recipientOutput options amount]).outputsData
      (surplus options amount feeRate cells) (effectiveChangeLock options) = .ok (outputs, outputsData, change)) :
    ({ tentativeTransaction options cells [recipientOutput options amount] with
        outputs := outputs, outputsData := outputsData } : RawTransaction) =
      plannedTransaction options amount feeRate cells ∧ change = surplus options amount feeRate cells := by
  unfold finalizeOutputs at h
  split_ifs at h with hpos
  · simp only [toHexQuantity, Result.bind_eq_ok, bigIntToHexQuantity_eq_ok, Result.pure_eq_ok,
      Prod.mk.injEq] at h
    obtain ⟨_, ⟨-, rfl⟩, rfl, rfl, rfl⟩ := h
    exact ⟨by simp [plannedTransaction, changeOutputs, hpos, tentativeTransaction], rfl⟩
  · simp only [Result.pure_eq_ok, Prod.mk.injEq] at h
    obtain ⟨rfl, rfl, rfl⟩ := h
    exact ⟨by simp [plannedTransaction, changeOutputs, hpos, tentativeTransaction], by omega⟩

/-- **One round** goes on when the cells do not fund the transfer, and otherwise returns the plan. -/
theorem tryTransfer_eq_ok {options : BuildTransferOptions} {amount feeRate : Int} {cells : List LiveCell}
    {o : Option UnsignedTransferTransaction} (hne : cells ≠ [])
    (h : tryTransfer options amount feeRate (effectiveChangeLock options) cells (cells.map cellCapacity).sum =
      .ok o) :
    (o = none ∧ ¬ Funds options amount feeRate cells) ∨
      ∃ r, o = some r ∧ Funds options amount feeRate cells ∧ Planned options amount feeRate cells r := by
  simp only [tryTransfer, toHexQuantity, Result.bind_eq_ok, bigIntToHexQuantity_eq_ok] at h
  obtain ⟨_, ⟨-, rfl⟩, fee, hfee, h⟩ := h
  obtain rfl := estimateTransactionFee_eq hne hfee
  have hmin := lockMinimum_pos (effectiveChangeLock options)
  rw [← surplus] at h
  simp only [Funds]
  by_cases hneg : surplus options amount feeRate cells < 0
  · rw [if_pos hneg, Result.pure_eq_ok] at h
    exact Or.inl ⟨h.symm, by omega⟩
  · rw [if_neg hneg, Result.bind_eq_ok] at h
    obtain ⟨minimum, hminimum, h⟩ := h
    obtain rfl := minimumCellCapacity_eq hminimum
    by_cases hsmall : surplus options amount feeRate cells > 0 ∧
        surplus options amount feeRate cells < lockMinimum (effectiveChangeLock options)
    · rw [if_pos hsmall, Result.pure_eq_ok] at h
      exact Or.inl ⟨h.symm, by omega⟩
    · rw [if_neg hsmall] at h
      simp only [Result.bind_eq_ok, Prod.exists, Result.pure_eq_ok] at h
      obtain ⟨outputs, outputsData, change, houtputs, size, hsize, placeholder, hplaceholder, rfl⟩ := h
      obtain ⟨hraw, rfl⟩ := finalizeOutputs_planned hneg houtputs
      refine Or.inr ⟨_, rfl, by omega, ⟨hminimum, rfl, hraw, hplaceholder, rfl, rfl, rfl, rfl, ?_⟩⟩
      have heq := estimateTransactionSize_eq (List.length_pos_iff.2 hne) hsize
      rw [← plannedTransaction_size, ← hraw]
      exact heq

/-! ### The loop -/

theorem hexToBigInt_cellCapacity {cell : LiveCell} {v : Int} (h : hexToBigInt cell.output.capacity = .ok v) :
    v = cellCapacity cell := by
  rw [cellCapacity, h]
  rfl

theorem sortByCapacity_eq_ok {cells sorted : List LiveCell} (h : sortByCapacity cells = .ok sorted) :
    sorted = cells.insertionSort fun left right => cellCapacity left ≤ cellCapacity right := by
  unfold sortByCapacity at h
  split_ifs at h with hshort
  · rw [Result.pure_eq_ok] at h
    rw [← h]
    match cells, hshort with
    | [], _ => rfl
    | [cell], _ => rfl
  · simp only [Result.bind_eq_ok, Result.pure_eq_ok] at h
    obtain ⟨keyed, hkeyed, rfl⟩ := h
    have hmap : keyed = cells.map fun cell => (cellCapacity cell, cell) := by
      apply Result.mapM_eq_map _ hkeyed
      intro cell entry hentry
      simp only [Result.bind_eq_ok, Result.pure_eq_ok] at hentry
      obtain ⟨v, hv, rfl⟩ := hentry
      rw [hexToBigInt_cellCapacity hv]
    have hsort := List.map_insertionSort (r := fun left right => cellCapacity left ≤ cellCapacity right)
      (s := fun left right => left.1 ≤ right.1) (fun cell => (cellCapacity cell, cell)) cells
      (fun _ _ _ _ => Iff.rfl)
    rw [hmap, ← hsort, List.map_map]
    exact List.map_id _

/-- The capacities of the selected cells are read and the round is tried. -/
def attempt (options : BuildTransferOptions) (amount feeRate : Int) (cells : List LiveCell) :
    Js (Option UnsignedTransferTransaction) := do
  let capacities ← cells.mapM fun cell => hexToBigInt cell.output.capacity
  tryTransfer options amount feeRate (effectiveChangeLock options) cells capacities.sum

/-- The loop tries the prefixes of the own cells, in order. -/
theorem selectCells_eq_firstPrefix {options : BuildTransferOptions} {amount feeRate : Int}
    {cells selected : List LiveCell} {capacities : List Int}
    (h : (selected.mapM fun cell => hexToBigInt cell.output.capacity) = .ok capacities) :
    selectCells options amount feeRate (effectiveChangeLock options) cells selected capacities.sum =
      Result.firstPrefix (attempt options amount feeRate) selected
        (cells.filter fun cell => sameLock cell.output.lock options.fromLock) := by
  induction cells generalizing selected capacities with
  | nil => rfl
  | cons cell cells ih =>
    by_cases hown : sameLock cell.output.lock options.fromLock = true
    · rw [selectCells, if_neg (not_not.2 hown), List.filter_cons, if_pos hown, Result.firstPrefix, attempt]
      cases hcapacity : hexToBigInt cell.output.capacity with
      | error e => simp [List.mapM_append, h, hcapacity]
      | ok v =>
        have hselected : ((selected ++ [cell]).mapM fun cell => hexToBigInt cell.output.capacity) =
            .ok (capacities ++ [v]) := by
          simp [List.mapM_append, h, hcapacity, pure, Except.pure]
        have hsum : (capacities ++ [v]).sum = capacities.sum + v := by simp
        simp only [hselected, Result.ok_bind, hsum]
        refine bind_congr fun o => ?_
        cases o with
        | some best => rfl
        | none =>
          have hrest := ih hselected
          rw [hsum] at hrest
          exact hrest
    · rw [selectCells, if_pos hown, List.filter_cons, if_neg hown]
      exact ih h

/-- From the start, the loop is the search over the own cells. -/
theorem selectCells_start (options : BuildTransferOptions) (amount feeRate : Int) (cells : List LiveCell) :
    selectCells options amount feeRate (effectiveChangeLock options) cells [] 0 =
      Result.firstPrefix (attempt options amount feeRate) []
        (cells.filter fun cell => sameLock cell.output.lock options.fromLock) := by
  have hstart : (([] : List LiveCell).mapM fun cell => hexToBigInt cell.output.capacity) = .ok [] := rfl
  exact selectCells_eq_firstPrefix hstart

theorem attempt_eq_ok {options : BuildTransferOptions} {amount feeRate : Int} {cells : List LiveCell}
    {o : Option UnsignedTransferTransaction} (hne : cells ≠ []) (h : attempt options amount feeRate cells = .ok o) :
    (∀ cell ∈ cells, hexToBigInt cell.output.capacity = .ok (cellCapacity cell)) ∧
      ((o = none ∧ ¬ Funds options amount feeRate cells) ∨
        ∃ r, o = some r ∧ Funds options amount feeRate cells ∧ Planned options amount feeRate cells r) := by
  simp only [attempt, Result.bind_eq_ok] at h
  obtain ⟨capacities, hcapacities, h⟩ := h
  have hmap : capacities = cells.map cellCapacity :=
    Result.mapM_eq_map cellCapacity hcapacities fun cell v hv => hexToBigInt_cellCapacity hv
  subst hmap
  refine ⟨fun cell hcell => ?_, tryTransfer_eq_ok hne h⟩
  rw [Result.mapM_eq_ok, List.forall₂_map_right_iff, List.forall₂_same] at hcapacities
  exact hcapacities cell hcell

/-- What a transfer is made of: the amount, the fee rate and the cells that fund it. -/
structure TransferPlan (options : BuildTransferOptions) (amount feeRate : Int) (cells : List LiveCell)
    (r : UnsignedTransferTransaction) : Prop where
  amount_eq : normalizeBigInt options.amount (lit "amount") = .ok amount
  feeRate_eq : normalizeBigInt (options.feeRate.getD (.bigint defaultFeeRate)) (lit "feeRate") = .ok feeRate
  recipientMinimum : minimumCellCapacity options.toLock (lit "0x") none = .ok (lockMinimum options.toLock)
  amount_ge : lockMinimum options.toLock ≤ amount
  capacities : ∀ cell ∈ cells, hexToBigInt cell.output.capacity = .ok (cellCapacity cell)
  funding : FundingPrefix options amount feeRate cells
  planned : Planned options amount feeRate cells r

/-- **A run returns exactly when the checks before the loop pass and the search finds a transfer.** -/
theorem buildTransferTransaction_eq_ok {options : BuildTransferOptions} {r : UnsignedTransferTransaction} :
    buildTransferTransaction options = .ok r ↔
      ∃ amount feeRate sorted, normalizeBigInt options.amount (lit "amount") = .ok amount ∧
        normalizeBigInt (options.feeRate.getD (.bigint defaultFeeRate)) (lit "feeRate") = .ok feeRate ∧
        minimumCellCapacity options.toLock (lit "0x") none = .ok (lockMinimum options.toLock) ∧
        lockMinimum options.toLock ≤ amount ∧ sortByCapacity options.cells = .ok sorted ∧
        Result.firstPrefix (attempt options amount feeRate) [] (ownCells options) = .ok (some r) := by
  have hloop : ∀ {amount feeRate : Int} {sorted : List LiveCell}, sortByCapacity options.cells = .ok sorted →
      selectCells options amount feeRate (options.changeLock.getD options.fromLock) sorted [] 0 =
        Result.firstPrefix (attempt options amount feeRate) [] (ownCells options) := by
    intro amount feeRate sorted hsorted
    rw [sortByCapacity_eq_ok hsorted]
    exact selectCells_start options amount feeRate _
  simp only [buildTransferTransaction, Result.bind_eq_ok, ite_raise_eq_ok, not_lt]
  constructor
  · intro h
    rcases h with ⟨amount, hamount, feeRate, hfeeRate, minimum, hminimum, hge, sorted, hsorted, best, hbest, h⟩
    obtain rfl := minimumCellCapacity_eq hminimum
    cases best with
    | none => exact absurd h raise_ne_ok
    | some best =>
      rw [Result.pure_eq_ok] at h
      subst h
      exact ⟨amount, feeRate, sorted, hamount, hfeeRate, hminimum, hge, hsorted, (hloop hsorted).symm.trans hbest⟩
  · intro h
    rcases h with ⟨amount, feeRate, sorted, hamount, hfeeRate, hminimum, hge, hsorted, hfirst⟩
    exact ⟨amount, hamount, feeRate, hfeeRate, _, hminimum, hge, sorted, hsorted, some r,
      (hloop hsorted).trans hfirst, rfl⟩

/-- **A transfer that is returned is the plan of the first funding prefix.** -/
theorem buildTransferTransaction_plan {options : BuildTransferOptions} {r : UnsignedTransferTransaction}
    (h : buildTransferTransaction options = .ok r) :
    ∃ amount feeRate cells, TransferPlan options amount feeRate cells r := by
  obtain ⟨amount, feeRate, sorted, hamount, hfeeRate, hminimum, hge, -, hfirst⟩ :=
    buildTransferTransaction_eq_ok.1 h
  obtain ⟨k, hk, hfound, hbefore⟩ := Result.firstPrefix_eq_some.1 hfirst
  rw [List.nil_append] at hfound
  obtain ⟨hcapacities, ⟨hnone, -⟩ | ⟨r', hr, hfunds, hplanned⟩⟩ :=
    attempt_eq_ok (Result.take_succ_ne_nil hk) hfound
  · exact absurd hnone (by simp)
  obtain rfl : r = r' := Option.some.inj hr
  refine ⟨amount, feeRate, _, hamount, hfeeRate, hminimum, hge, hcapacities,
    ⟨k, hk, rfl, hfunds, fun j hj => ?_⟩, hplanned⟩
  have hnone := hbefore j hj
  rw [List.nil_append] at hnone
  obtain ⟨-, ⟨-, hnot⟩ | ⟨_, hsome, -⟩⟩ := attempt_eq_ok (Result.take_succ_ne_nil (hj.trans hk)) hnone
  · exact hnot
  · exact absurd hsome (by simp)

/-! ### The size that is returned -/

/-- The size of a round that returns a transfer is that of its placeholder transaction. -/
theorem tryTransfer_serialized {options : BuildTransferOptions} {amount feeRate inputCapacity : Int}
    {changeLock : LockScript} {cells : List LiveCell} {r : UnsignedTransferTransaction}
    (h : tryTransfer options amount feeRate changeLock cells inputCapacity = .ok (some r)) :
    ∃ bytes, serializeTransaction r.placeholderTransaction = .ok bytes ∧ bytes.length = r.txSize := by
  simp only [tryTransfer, Result.bind_eq_ok] at h
  obtain ⟨_, -, fee, -, h⟩ := h
  split_ifs at h
  · simp at h
  · rw [Result.bind_eq_ok] at h
    obtain ⟨minimum, -, h⟩ := h
    split_ifs at h
    · simp at h
    · simp only [Result.bind_eq_ok, Prod.exists, Result.pure_eq_ok, estimateTransactionSize,
        Option.some.injEq] at h
      obtain ⟨outputs, outputsData, change, -, _, ⟨tx, htx, bytes, hbytes, rfl⟩, placeholder, hplaceholder, rfl⟩ := h
      obtain rfl : tx = placeholder := Result.ok_unique htx hplaceholder
      exact ⟨bytes, hbytes, rfl⟩

theorem buildTransferTransaction_serialized {options : BuildTransferOptions} {r : UnsignedTransferTransaction}
    (h : buildTransferTransaction options = .ok r) :
    ∃ bytes, serializeTransaction r.placeholderTransaction = .ok bytes ∧ bytes.length = r.txSize := by
  obtain ⟨amount, feeRate, sorted, -, -, -, -, -, hfirst⟩ := buildTransferTransaction_eq_ok.1 h
  obtain ⟨k, -, hfound, -⟩ := Result.firstPrefix_eq_some.1 hfirst
  simp only [attempt, Result.bind_eq_ok] at hfound
  obtain ⟨capacities, -, hfound⟩ := hfound
  exact tryTransfer_serialized hfound

end CkbDilithium.Sdk
