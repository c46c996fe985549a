import CkbDilithium.Lib.Related
import CkbDilithium.Transfer.Preflight

/-!
# The order in which cells are listed

Two lists with the same own cells, in any order and among any foreign cells, lead to the same plan. The
two runs are compared round by round: sorting makes the capacities of the own cells one and the same
list, and cells with well-formed out points are serialized to equally many bytes, so that every round
computes the same sizes, fee and change (`tryTransfer_related`). When the capacities are distinct the
sorted own cells are the same list, and so is the transaction (`buildTransferTransaction_relisted`).
-/

namespace CkbDilithium.Sdk

open Js Result

/-! ### Serialized lengths -/

def SameLength (left right : Bytes) : Prop := left.length = right.length

/-- The offsets depend on the lengths of the items alone. -/
theorem itemOffsets_congr {items items' : List Bytes} (h : items.map List.length = items'.map List.length)
    (offset : Nat) : itemOffsets items offset = itemOffsets items' offset := by
  induction items generalizing items' offset with
  | nil =>
    rw [List.map_nil] at h
    rw [List.map_eq_nil_iff.1 h.symm]
  | cons item items ih =>
    cases items' with
    | nil => simp at h
    | cons item' items' =>
      rw [List.map_cons, List.map_cons, List.cons.injEq] at h
      rw [itemOffsets, itemOffsets, h.1, ih h.2]

theorem serializeDynVec_related {items items' : List Bytes} (h : items.map List.length = items'.map List.length) :
    Related SameLength (serializeDynVec items) (serializeDynVec items') := by
  have hcount : items.length = items'.length := by simpa using congrArg List.length h
  have hflatten : items.flatten.length = items'.flatten.length := by
    rw [List.length_flatten, List.length_flatten, h]
  simp only [serializeDynVec, hcount, itemOffsets_congr h]
  refine Related.bind_same _ fun p => Related.bind_same _ fun header => Related.pure ?_
  simp only [SameLength, concatBytes, List.flatten_cons, List.flatten_append, List.length_append, hflatten]

theorem serializeTable_related {fields fields' : List Bytes}
    (h : fields.map List.length = fields'.map List.length) :
    Related SameLength (serializeTable fields) (serializeTable fields') := serializeDynVec_related h

/-- Inputs with well-formed out points are serialized to 44 bytes each. -/
theorem serializeCellInputVec_related {inputs inputs' : List TransactionInput}
    (h : ∀ input ∈ inputs, input.WellFormed) (h' : ∀ input ∈ inputs', input.WellFormed)
    (hcount : inputs.length = inputs'.length) :
    Related SameLength (serializeCellInputVec inputs) (serializeCellInputVec inputs') := by
  have hwritten : ∀ {inputs : List TransactionInput}, (∀ input ∈ inputs, input.WellFormed) →
      ∃ written, inputs.mapM serializeCellInput = .ok written ∧ written.length = inputs.length ∧
        written.flatten.length = 44 * inputs.length := by
    intro inputs h
    obtain ⟨written, hwritten⟩ := mapM_returns fun input hinput => serializeCellInput_returns (h input hinput)
    refine ⟨written, hwritten, mapM_length hwritten, ?_⟩
    have hsum := mapM_flatten_length _ hwritten fun _ _ => serializeCellInput_size
    have hsizes : inputs.map (fun input => 12 + hexSize input.previousOutput.txHash) = inputs.map fun _ => 44 := by
      apply List.map_congr_left
      intro input hinput
      rw [hexSize, hexValue_length (h input hinput).previousOutput.txHash]
    rw [hsum, hsizes, List.map_const', List.sum_replicate, smul_eq_mul, Nat.mul_comm]
  obtain ⟨written, hmap, hlen, hflatten⟩ := hwritten h
  obtain ⟨written', hmap', hlen', hflatten'⟩ := hwritten h'
  rw [serializeCellInputVec, serializeCellInputVec, hmap, hmap', ok_bind, ok_bind, serializeFixVec, serializeFixVec,
    hlen, hlen', hcount]
  refine Related.bind_same _ fun header => Related.pure ?_
  simp only [SameLength, concatBytes, List.flatten_cons, List.length_append, hflatten, hflatten', hcount]

section Inputs

variable {inputs' : List TransactionInput}

theorem serializeRawTransaction_related {tx : RawTransaction}
    (h : Related SameLength (serializeCellInputVec tx.inputs) (serializeCellInputVec inputs')) :
    Related SameLength (serializeRawTransaction tx) (serializeRawTransaction { tx with inputs := inputs' }) := by
  unfold serializeRawTransaction
  refine Related.bind_same _ fun version => Related.bind_same _ fun cellDeps => Related.bind_same _ fun headers =>
    Related.bind_same _ fun headerDeps => h.bind fun inputs inputs' hinputs => Related.bind_same _ fun outputs =>
    Related.bind_same _ fun datas => Related.bind_same _ fun outputsData => serializeTable_related ?_
  rw [SameLength] at hinputs
  simp only [List.map_cons, List.map_nil, hinputs]

theorem estimateTransactionSize_related (tx : RawTransaction) (count : Nat)
    (h : Related SameLength (serializeCellInputVec tx.inputs) (serializeCellInputVec inputs')) :
    Related Eq (estimateTransactionSize tx count) (estimateTransactionSize { tx with inputs := inputs' } count) := by
  unfold estimateTransactionSize withPlaceholderWitnesses
  rw [bind_assoc, bind_assoc]
  refine Related.bind_same _ fun witnesses => ?_
  rw [pure_bind, pure_bind]
  refine Related.bind (R := SameLength) ?_ fun bytes bytes' hbytes => Related.pure hbytes
  unfold serializeTransaction
  refine (serializeRawTransaction_related h).bind fun raw raw' hraw => Related.bind_same _ fun items =>
    Related.bind_same _ fun written => serializeTable_related ?_
  rw [SameLength] at hraw
  simp only [List.map_cons, List.map_nil, hraw]

end Inputs

/-! ### One round -/

/-- The two plans agree in everything but the cells, whose capacities agree. -/
structure SamePlan (r r' : UnsignedTransferTransaction) : Prop where
  fee : r.fee = r'.fee
  inputCapacity : r.inputCapacity = r'.inputCapacity
  outputCapacity : r.outputCapacity = r'.outputCapacity
  changeCapacity : r.changeCapacity = r'.changeCapacity
  txSize : r.txSize = r'.txSize
  outputs : r.rawTransaction.outputs = r'.rawTransaction.outputs
  selected : r.selectedCells.map cellCapacity = r'.selectedCells.map cellCapacity

section Round

variable {options : BuildTransferOptions} {amount feeRate : Int} {cells cells' : List LiveCell}

theorem tentativeTransaction_related (options : BuildTransferOptions) (outputs : List CellOutput)
    (h : ∀ cell ∈ cells, cell.outPoint.WellFormed)
    (h' : ∀ cell ∈ cells', cell.outPoint.WellFormed) (hcount : cells.length = cells'.length) :
    Related SameLength (serializeCellInputVec (tentativeTransaction options cells outputs).inputs)
      (serializeCellInputVec (tentativeTransaction options cells' outputs).inputs) := by
  have hinputs : ∀ {cells : List LiveCell}, (∀ cell ∈ cells, cell.outPoint.WellFormed) →
      ∀ input ∈ (tentativeTransaction options cells outputs).inputs, input.WellFormed := by
    intro cells h input hinput
    obtain ⟨cell, hcell, rfl⟩ := List.mem_map.1 hinput
    exact ⟨isQuantity_zero 64, h cell hcell⟩
  refine serializeCellInputVec_related (hinputs h) (hinputs h') ?_
  rw [tentativeTransaction, tentativeTransaction, List.length_map, List.length_map, hcount]

/-- **A round gives the same plan for cells of the same capacities.** -/
theorem tryTransfer_related (h : ∀ cell ∈ cells, cell.outPoint.WellFormed)
    (h' : ∀ cell ∈ cells', cell.outPoint.WellFormed) (hcap : cells.map cellCapacity = cells'.map cellCapacity)
    (changeLock : LockScript) (inputCapacity : Int) :
    Related (Option.Rel SamePlan) (tryTransfer options amount feeRate changeLock cells inputCapacity)
      (tryTransfer options amount feeRate changeLock cells' inputCapacity) := by
  have hcount : cells.length = cells'.length := by simpa using congrArg List.length hcap
  unfold tryTransfer
  rw [hcount]
  refine Related.bind_same _ fun quantity => ?_
  have hinputs := tentativeTransaction_related options
    [{ capacity := quantity, lock := options.toLock, type := none }] h h' hcount
  refine Related.bind (R := Eq) ?_ fun fee fee' hfee => ?_
  · exact (estimateTransactionSize_related _ _ hinputs).bind fun size size' hsize => .ok (by rw [hsize])
  subst hfee
  refine Related.ite (.ok .none) (Related.bind_same _ fun minimum => Related.ite (.ok .none) ?_)
  refine Related.bind_same _ fun finalized => ?_
  obtain ⟨outputs, outputsData, change⟩ := finalized
  refine (estimateTransactionSize_related
    { tentativeTransaction options cells outputs with outputsData := outputsData } _ hinputs).bind
    fun size size' hsize => ?_
  unfold withPlaceholderWitnesses
  rw [bind_assoc, bind_assoc]
  refine Related.bind_same _ fun witnesses => .ok (.some ?_)
  exact ⟨rfl, rfl, rfl, rfl, hsize, rfl, hcap⟩

/-- The capacity of every cell is read. -/
def Readable (cells : List LiveCell) : Prop :=
  ∀ cell ∈ cells, hexToBigInt cell.output.capacity = .ok (cellCapacity cell)

theorem attempt_related (h : ∀ cell ∈ cells, cell.outPoint.WellFormed)
    (h' : ∀ cell ∈ cells', cell.outPoint.WellFormed) (hread : Readable cells) (hread' : Readable cells')
    (hcap : cells.map cellCapacity = cells'.map cellCapacity) :
    Related (Option.Rel SamePlan) (attempt options amount feeRate cells) (attempt options amount feeRate cells') := by
  rw [attempt, attempt, mapM_of_forall_ok hread, mapM_of_forall_ok hread', ok_bind, ok_bind, hcap]
  exact tryTransfer_related h h' hcap _ _

end Round

/-! ### The whole transfer -/

/-- The lists hold the same cells of the lock, in any order and among any other cells. -/
def Relisted (lock : LockScript) (cells cells' : List LiveCell) : Prop :=
  (cells.filter fun cell => sameLock cell.output.lock lock).Perm
    (cells'.filter fun cell => sameLock cell.output.lock lock)

theorem Relisted.of_perm (lock : LockScript) {cells cells' : List LiveCell} (h : cells.Perm cells') :
    Relisted lock cells cells' := h.filter _

/-- A cell of another lock may be inserted anywhere; read backwards, removed. -/
theorem Relisted.insert {lock : LockScript} {cell : LiveCell} (hcell : cell.output.lock ≠ lock)
    (left right : List LiveCell) : Relisted lock (left ++ right) (left ++ cell :: right) := by
  have hforeign : ¬ sameLock cell.output.lock lock = true := fun h => hcell (sameLock_iff.1 h)
  rw [Relisted, List.filter_append, List.filter_append, List.filter_cons, if_neg hforeign]

theorem Relisted.trans {lock : LockScript} {cells cells' cells'' : List LiveCell} (h : Relisted lock cells cells')
    (h' : Relisted lock cells' cells'') : Relisted lock cells cells'' := List.Perm.trans h h'

theorem Relisted.symm {lock : LockScript} {cells cells' : List LiveCell} (h : Relisted lock cells cells') :
    Relisted lock cells' cells := List.Perm.symm h

theorem ownCells_pairwise (options : BuildTransferOptions) :
    (ownCells options).Pairwise fun left right => cellCapacity left ≤ cellCapacity right := by
  have htotal : Std.Total fun left right : LiveCell => cellCapacity left ≤ cellCapacity right :=
    ⟨fun left right => le_total _ _⟩
  have htrans : IsTrans LiveCell fun left right => cellCapacity left ≤ cellCapacity right :=
    ⟨fun _ _ _ => le_trans⟩
  exact (List.pairwise_insertionSort _ options.cells).filter _

section Relisting

variable {options : BuildTransferOptions} {cells' : List LiveCell}

theorem ownCells_relisted (h : Relisted options.fromLock options.cells cells') :
    (ownCells options).Perm (ownCells { options with cells := cells' }) :=
  ((ownCells_perm options).trans h).trans (ownCells_perm { options with cells := cells' }).symm

/-- Sorted, the capacities of the own cells are one list. -/
theorem ownCells_capacities (h : Relisted options.fromLock options.cells cells') :
    (ownCells options).map cellCapacity = (ownCells { options with cells := cells' }).map cellCapacity := by
  refine List.Perm.eq_of_pairwise (fun a b _ _ hab hba => le_antisymm hab hba) ?_ ?_
    ((ownCells_relisted h).map cellCapacity)
  · exact List.pairwise_map.2 (ownCells_pairwise options)
  · exact List.pairwise_map.2 (ownCells_pairwise { options with cells := cells' })

/-- With distinct capacities the sorted own cells are one list. -/
theorem ownCells_eq_of_nodup (h : Relisted options.fromLock options.cells cells')
    (hnodup : ((lockedCells options).map cellCapacity).Nodup) :
    ownCells options = ownCells { options with cells := cells' } := by
  have hperm := ownCells_relisted h
  have hown : ((ownCells options).map cellCapacity).Nodup :=
    (((ownCells_perm options).map cellCapacity).nodup_iff).2 hnodup
  refine List.Perm.eq_of_pairwise (fun a b ha hb hab hba => ?_) (ownCells_pairwise options)
    (ownCells_pairwise { options with cells := cells' }) hperm
  exact List.inj_on_of_nodup_map hown ha (hperm.mem_iff.2 hb) (le_antisymm hab hba)

/-- The two searches end alike. -/
theorem search_related (h : Relisted options.fromLock options.cells cells')
    (hpoints : ∀ cell ∈ lockedCells options, cell.outPoint.WellFormed) (hread : Readable options.cells)
    (hread' : Readable cells') (amount feeRate : Int) :
    Related (Option.Rel SamePlan) (firstPrefix (attempt options amount feeRate) [] (ownCells options))
      (firstPrefix (attempt options amount feeRate) [] (ownCells { options with cells := cells' })) := by
  have hperm := ownCells_relisted h
  have hown : ∀ cell ∈ ownCells options, cell.outPoint.WellFormed := fun cell hcell =>
    hpoints cell ((ownCells_perm options).mem_iff.1 hcell)
  refine Related.firstPrefix hperm.length_eq [] [] fun k hk => ?_
  rw [List.nil_append, List.nil_append]
  refine attempt_related (fun cell hcell => hown cell (List.mem_of_mem_take hcell))
    (fun cell hcell => hown cell (hperm.mem_iff.2 (List.mem_of_mem_take hcell)))
    (fun cell hcell => hread cell (ownCells_subset options cell (List.mem_of_mem_take hcell)))
    (fun cell hcell => hread' cell (ownCells_subset { options with cells := cells' } cell
      (List.mem_of_mem_take hcell))) ?_
  rw [List.map_take, List.map_take, ownCells_capacities h]

/-- The two runs end alike: with the same error or with the same plan. -/
theorem buildTransferTransaction_related (h : Relisted options.fromLock options.cells cells')
    (hpoints : ∀ cell ∈ lockedCells options, cell.outPoint.WellFormed) (hread : Readable options.cells)
    (hread' : Readable cells') :
    Related SamePlan (buildTransferTransaction options)
      (buildTransferTransaction { options with cells := cells' }) := by
  obtain ⟨sorted, hsorted⟩ := sortByCapacity_returns hread
  obtain ⟨sorted', hsorted'⟩ := sortByCapacity_returns hread'
  have hloop : ∀ amount feeRate, selectCells options amount feeRate (options.changeLock.getD options.fromLock)
      sorted [] 0 = firstPrefix (attempt options amount feeRate) [] (ownCells options) := by
    intro amount feeRate
    rw [sortByCapacity_eq_ok hsorted]
    exact selectCells_start options amount feeRate _
  have hloop' : ∀ amount feeRate, selectCells { options with cells := cells' } amount feeRate
      (options.changeLock.getD options.fromLock) sorted' [] 0 =
        firstPrefix (attempt options amount feeRate) [] (ownCells { options with cells := cells' }) := by
    intro amount feeRate
    rw [sortByCapacity_eq_ok hsorted']
    exact selectCells_start { options with cells := cells' } amount feeRate _
  unfold buildTransferTransaction
  refine Related.bind_same _ fun amount => Related.bind_same _ fun feeRate => Related.bind_same _ fun minimum =>
    Related.ite (.error _) ?_
  rw [hsorted, hsorted', ok_bind, ok_bind, hloop, hloop']
  refine (search_related h hpoints hread hread' amount feeRate).bind fun o o' ho => ?_
  cases ho with
  | some hplan => exact .ok hplan
  | none => exact .error _

/-- With distinct capacities both runs make the same selection. -/
theorem buildTransferTransaction_unique (h : Relisted options.fromLock options.cells cells')
    (hnodup : ((lockedCells options).map cellCapacity).Nodup) {r r' : UnsignedTransferTransaction}
    (hr : buildTransferTransaction options = .ok r)
    (hr' : buildTransferTransaction { options with cells := cells' } = .ok r') : r = r' := by
  obtain ⟨amount, feeRate, -, hamount, hfeeRate, -, -, -, hfirst⟩ := buildTransferTransaction_eq_ok.1 hr
  obtain ⟨amount', feeRate', -, hamount', hfeeRate', -, -, -, hfirst'⟩ := buildTransferTransaction_eq_ok.1 hr'
  obtain rfl : amount = amount' := Result.ok_unique hamount hamount'
  obtain rfl : feeRate = feeRate' := Result.ok_unique hfeeRate hfeeRate'
  rw [← ownCells_eq_of_nodup h hnodup] at hfirst'
  have hsame : attempt { options with cells := cells' } amount feeRate = attempt options amount feeRate := rfl
  rw [hsame, hfirst, Except.ok.injEq, Option.some.injEq] at hfirst'
  exact hfirst'

/-- **The plan does not depend on the order of the cells or on foreign cells.** For lists with the same
own cells, and capacities that can be read, the builder returns on both or on neither; what it returns
agrees in the fee, the capacities, the size, the outputs and the selected capacities. When the own
capacities are distinct the raw transactions are identical. -/
theorem buildTransferTransaction_relisted (h : Relisted options.fromLock options.cells cells')
    (hpoints : ∀ cell ∈ lockedCells options, cell.outPoint.WellFormed) (hread : Readable options.cells)
    (hread' : Readable cells') :
    ((∃ r, buildTransferTransaction options = .ok r) ↔
      ∃ r', buildTransferTransaction { options with cells := cells' } = .ok r') ∧
    ∀ r r', buildTransferTransaction options = .ok r →
      buildTransferTransaction { options with cells := cells' } = .ok r' →
      SamePlan r r' ∧ (((lockedCells options).map cellCapacity).Nodup → r.rawTransaction = r'.rawTransaction) := by
  have hrelated := buildTransferTransaction_related h hpoints hread hread'
  refine ⟨hrelated.returns_iff, fun r r' hr hr' => ⟨hrelated.of_ok hr hr', fun hnodup => ?_⟩⟩
  rw [buildTransferTransaction_unique h hnodup hr hr']

end Relisting

/-! ### The sample transfer with its cells listed in another order -/

/-- A cell of the recipient. -/
def foreignCell : LiveCell := { plainCell with output := { plainCell.output with lock := recipientLock } }

theorem buildTransferTransaction_relisted_sampleTransfer :
    ∃ r r', buildTransferTransaction sampleTransfer = .ok r ∧
      buildTransferTransaction { sampleTransfer with cells := [tokenCell, foreignCell, plainCell] } = .ok r' ∧
      r.rawTransaction = r'.rawTransaction := by
  have hwf := sampleTransfer_wellFormed
  have hne : recipientLock ≠ senderLock := by decide
  have hrelisted : Relisted sampleTransfer.fromLock sampleTransfer.cells [tokenCell, foreignCell, plainCell] :=
    (Relisted.of_perm _ (List.Perm.swap tokenCell plainCell [])).trans (Relisted.insert hne [tokenCell] [plainCell])
  have hread' : Readable [tokenCell, foreignCell, plainCell] := by
    intro cell hcell
    simp only [List.mem_cons, List.not_mem_nil, or_false] at hcell
    rcases hcell with rfl | rfl | rfl
    · exact hwf.capacities _ (by simp [sampleTransfer])
    · exact hwf.capacities plainCell (by simp [sampleTransfer])
    · exact hwf.capacities _ (by simp [sampleTransfer])
  have hnodup : ((lockedCells sampleTransfer).map cellCapacity).Nodup := by
    rw [← ((ownCells_perm sampleTransfer).map cellCapacity).nodup_iff, sampleTransfer_ownCells]
    simp [tokenCell_capacity, plainCell_capacity]
  obtain ⟨hreturns, hsame⟩ := buildTransferTransaction_relisted hrelisted
    (fun cell hcell => hwf.outPoints cell (List.mem_of_mem_filter hcell)) hwf.capacities hread'
  obtain ⟨r, hr⟩ := sampleTransfer_returns
  obtain ⟨r', hr'⟩ := hreturns.1 ⟨r, hr⟩
  exact ⟨r, r', hr, hr', (hsame r r' hr hr').2 hnodup⟩

end CkbDilithium.Sdk
