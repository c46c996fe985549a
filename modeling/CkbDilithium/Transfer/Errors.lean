import CkbDilithium.Sdk.Preflight
import CkbDilithium.Transfer.Returns

/-!
# Where the builder runs out of capacity

`buildTransferTransaction` throws `insufficientCapacityMessage` in one place, after its loop: no check
and no serializer it calls throws that text (`attempt_quiet`). The error therefore says that the
search over the own cells came to nothing (`buildTransferTransaction_insufficient`).
-/

namespace CkbDilithium.Sdk

open Js Result

/-- What the builder throws after its loop. -/
def insufficientCapacityError : JsError := .error insufficientCapacityMessage

/-- The computation does not throw the error of the loop. -/
abbrev Quiet {α : Type} (x : Js α) : Prop := Avoids insufficientCapacityError x

theorem quiet_raise {α : Type} {message : JsString} (h : message ≠ insufficientCapacityMessage) :
    Quiet (raise message : Js α) :=
  avoids_throw fun heq => h (JsError.error.inj heq)

/-- A text with another first letter. -/
theorem quiet_raise_append {α : Type} {start rest : JsString} {c : UInt16} (hstart : start.head? = some c)
    (hc : c ≠ unit 'i') : Quiet (raise (start ++ rest) : Js α) := by
  refine quiet_raise fun heq => hc ?_
  have hhead := congrArg List.head? heq
  rw [List.head?_append, hstart] at hhead
  exact Option.some.inj (hhead.trans (by decide))

/-! ### Strings and numbers -/

theorem hexToBytes_quiet (value : JsString) : Quiet (hexToBytes value) := by
  unfold hexToBytes
  refine .ite (quiet_raise (by decide)) ?_
  exact .ite (quiet_raise (by decide)) (avoids_pure _)

theorem u32ToLeBytes_quiet (value : JsNumber) : Quiet (u32ToLeBytes value) :=
  .ite (quiet_raise (by decide)) (avoids_pure _)

theorem u64ToLeBytes_quiet (value : Int) : Quiet (u64ToLeBytes value) :=
  .ite (quiet_raise (by decide)) (avoids_pure _)

theorem bigIntOfString_quiet (value : JsString) : Quiet (bigIntOfString value) := by
  unfold bigIntOfString
  cases stringToBigInt value with
  | none => exact avoids_throw (by simp [insufficientCapacityError])
  | some v => exact avoids_pure v

theorem hexToBigInt_quiet (value : JsString) : Quiet (hexToBigInt value) := by
  have hnormalize : Quiet (normalizeHex value) := .ite (quiet_raise (by decide)) (avoids_pure _)
  exact hnormalize.bind bigIntOfString_quiet

theorem toHexQuantity_bigint_quiet (value : Int) : Quiet (toHexQuantity (.bigint value)) :=
  .ite (quiet_raise (by decide)) (avoids_pure _)

theorem hashTypeByte_quiet (hashType : JsString) : Quiet (hashTypeByte hashType) := by
  unfold hashTypeByte
  refine .ite (avoids_pure _) (.ite (avoids_pure _) (.ite ?_ (avoids_pure _)))
  exact quiet_raise_append (c := unit 'u') (by decide) (by decide)

theorem normalizeBigInt_quiet (value : Numeric) {label : JsString} {c : UInt16} (hlabel : label.head? = some c)
    (hc : c ≠ unit 'i') : Quiet (normalizeBigInt value label) := by
  cases value with
  | bigint value => exact avoids_pure value
  | number value => exact .ite (quiet_raise_append hlabel hc) (avoids_pure _)
  | string value => exact .ite (hexToBigInt_quiet value) (bigIntOfString_quiet value)

/-! ### Serializers -/

theorem quantityToLeBytes_quiet (value : JsString) : Quiet (quantityToLeBytes value) :=
  (hexToBigInt_quiet value).bind fun _ => u32ToLeBytes_quiet _

theorem serializeFixVec_quiet (items : List Bytes) : Quiet (serializeFixVec items) :=
  (u32ToLeBytes_quiet _).bind fun _ => avoids_pure _

theorem itemOffsets_quiet (items : List Bytes) (offset : Nat) : Quiet (itemOffsets items offset) := by
  induction items generalizing offset with
  | nil => exact avoids_pure _
  | cons item items ih => exact (u32ToLeBytes_quiet _).bind fun _ => (ih _).bind fun _ => avoids_pure _

theorem serializeDynVec_quiet (items : List Bytes) : Quiet (serializeDynVec items) :=
  (itemOffsets_quiet items _).bind fun _ => (u32ToLeBytes_quiet _).bind fun _ => avoids_pure _

theorem serializeTable_quiet (fields : List Bytes) : Quiet (serializeTable fields) := serializeDynVec_quiet fields

theorem serializeBytes_quiet (bytes : Bytes) : Quiet (serializeBytes bytes) := serializeFixVec_quiet _

theorem serializeBytesVec_quiet (items : List Bytes) : Quiet (serializeBytesVec items) :=
  (Avoids.mapM serializeBytes_quiet items).bind serializeDynVec_quiet

theorem encodeOptionBytes_quiet (value : Option Bytes) : Quiet (encodeOptionBytes value) := by
  cases value with
  | none => exact avoids_pure []
  | some value => exact serializeBytes_quiet value

theorem encodeWitnessArgs_quiet (lock : Option Bytes) : Quiet (encodeWitnessArgs lock) :=
  (encodeOptionBytes_quiet lock).bind fun _ => (encodeOptionBytes_quiet none).bind fun _ =>
    (encodeOptionBytes_quiet none).bind fun _ => (serializeTable_quiet _).bind fun _ => avoids_pure _

theorem serializeOutPoint_quiet (outPoint : OutPoint) : Quiet (serializeOutPoint outPoint) :=
  (hexToBytes_quiet _).bind fun _ => (quantityToLeBytes_quiet _).bind fun _ => avoids_pure _

theorem serializeScript_quiet (script : LockScript) : Quiet (serializeScript script) :=
  (hexToBytes_quiet _).bind fun _ => (hashTypeByte_quiet _).bind fun _ => (hexToBytes_quiet _).bind fun _ =>
    (serializeBytes_quiet _).bind fun _ => serializeTable_quiet _

theorem serializeCellOutput_quiet (output : CellOutput) : Quiet (serializeCellOutput output) := by
  refine (hexToBigInt_quiet _).bind fun _ => (u64ToLeBytes_quiet _).bind fun _ =>
    (serializeScript_quiet _).bind fun _ => Avoids.bind ?_ fun _ => serializeTable_quiet _
  cases output.type with
  | none => exact avoids_pure []
  | some script => exact serializeScript_quiet script

theorem serializeCellInput_quiet (input : TransactionInput) : Quiet (serializeCellInput input) :=
  (hexToBigInt_quiet _).bind fun _ => (u64ToLeBytes_quiet _).bind fun _ =>
    (serializeOutPoint_quiet _).bind fun _ => avoids_pure _

theorem serializeCellDep_quiet (cellDep : CellDep) : Quiet (serializeCellDep cellDep) :=
  (serializeOutPoint_quiet _).bind fun _ => avoids_pure _

theorem serializeRawTransaction_quiet (tx : RawTransaction) : Quiet (serializeRawTransaction tx) :=
  (quantityToLeBytes_quiet _).bind fun _ =>
    ((Avoids.mapM serializeCellDep_quiet _).bind serializeFixVec_quiet).bind fun _ =>
    (Avoids.mapM hexToBytes_quiet _).bind fun _ => (serializeFixVec_quiet _).bind fun _ =>
    ((Avoids.mapM serializeCellInput_quiet _).bind serializeFixVec_quiet).bind fun _ =>
    ((Avoids.mapM serializeCellOutput_quiet _).bind serializeDynVec_quiet).bind fun _ =>
    (Avoids.mapM hexToBytes_quiet _).bind fun _ => (serializeBytesVec_quiet _).bind fun _ => serializeTable_quiet _

theorem serializeTransaction_quiet (tx : Transaction) : Quiet (serializeTransaction tx) :=
  (serializeRawTransaction_quiet _).bind fun _ => (Avoids.mapM hexToBytes_quiet _).bind fun _ =>
    (serializeBytesVec_quiet _).bind fun _ => serializeTable_quiet _

/-! ### The rounds of the loop -/

theorem withPlaceholderWitnesses_quiet (tx : RawTransaction) (count : Nat) :
    Quiet (withPlaceholderWitnesses tx count) := by
  refine Avoids.bind (Avoids.mapM (fun index => ?_) _) fun _ => avoids_pure _
  exact .ite (encodeWitnessArgs_quiet _) (encodeWitnessArgs_quiet none)

theorem estimateTransactionSize_quiet (tx : RawTransaction) (count : Nat) : Quiet (estimateTransactionSize tx count) :=
  (withPlaceholderWitnesses_quiet tx count).bind fun _ => (serializeTransaction_quiet _).bind fun _ => avoids_pure _

theorem minimumCellCapacity_quiet (lock : LockScript) : Quiet (minimumCellCapacity lock (lit "0x") none) :=
  (hexToBytes_quiet _).bind fun _ => (avoids_pure _).bind fun _ => (hexToBytes_quiet _).bind fun _ => avoids_pure _

theorem finalizeOutputs_quiet (outputs : List CellOutput) (outputsData : List JsString) (change : Int)
    (lock : LockScript) : Quiet (finalizeOutputs outputs outputsData change lock) :=
  .ite ((toHexQuantity_bigint_quiet _).bind fun _ => avoids_pure _) (avoids_pure _)

theorem tryTransfer_quiet (options : BuildTransferOptions) (amount feeRate : Int) (changeLock : LockScript)
    (cells : List LiveCell) (inputCapacity : Int) :
    Quiet (tryTransfer options amount feeRate changeLock cells inputCapacity) := by
  refine (toHexQuantity_bigint_quiet _).bind fun _ => Avoids.bind ?_ fun _ => .ite (avoids_pure _) ?_
  · exact (estimateTransactionSize_quiet _ _).bind fun _ => avoids_pure _
  · refine (minimumCellCapacity_quiet _).bind fun _ => .ite (avoids_pure _) ?_
    exact (finalizeOutputs_quiet _ _ _ _).bind fun _ => (estimateTransactionSize_quiet _ _).bind fun _ =>
      (withPlaceholderWitnesses_quiet _ _).bind fun _ => avoids_pure _

theorem attempt_quiet (options : BuildTransferOptions) (amount feeRate : Int) (cells : List LiveCell) :
    Quiet (attempt options amount feeRate cells) :=
  (Avoids.mapM (fun _ => hexToBigInt_quiet _) cells).bind fun _ => tryTransfer_quiet _ _ _ _ _ _

theorem sortByCapacity_quiet (cells : List LiveCell) : Quiet (sortByCapacity cells) := by
  refine .ite (avoids_pure _) (Avoids.bind (Avoids.mapM (fun _ => ?_) _) fun _ => avoids_pure _)
  exact (hexToBigInt_quiet _).bind fun _ => avoids_pure _

/-- **The builder runs out of capacity only when no prefix of the own cells funds the transfer.** -/
theorem buildTransferTransaction_insufficient {options : BuildTransferOptions}
    (h : buildTransferTransaction options = .error insufficientCapacityError) :
    ∃ amount feeRate, normalizeBigInt options.amount (lit "amount") = .ok amount ∧
      normalizeBigInt (options.feeRate.getD (.bigint defaultFeeRate)) (lit "feeRate") = .ok feeRate ∧
      ∀ k < (ownCells options).length, ¬ Funds options amount feeRate ((ownCells options).take (k + 1)) := by
  unfold buildTransferTransaction at h
  obtain ⟨amount, hamount, h⟩ :=
    (normalizeBigInt_quiet options.amount (c := unit 'a') (by decide) (by decide)).bind_eq_error h
  obtain ⟨feeRate, hfeeRate, h⟩ := (normalizeBigInt_quiet _ (c := unit 'f') (by decide) (by decide)).bind_eq_error h
  obtain ⟨minimum, -, h⟩ := (minimumCellCapacity_quiet options.toLock).bind_eq_error h
  refine ⟨amount, feeRate, hamount, hfeeRate, ?_⟩
  by_cases hbelow : amount < minimum
  · rw [if_pos hbelow, List.append_assoc] at h
    exact absurd h (quiet_raise_append (c := unit 'a') (by decide) (by decide))
  rw [if_neg hbelow] at h
  obtain ⟨sorted, hsorted, h⟩ := (sortByCapacity_quiet options.cells).bind_eq_error h
  rw [sortByCapacity_eq_ok hsorted] at h
  have hloop : selectCells options amount feeRate (options.changeLock.getD options.fromLock)
      (options.cells.insertionSort fun left right => cellCapacity left ≤ cellCapacity right) [] 0 =
        firstPrefix (attempt options amount feeRate) [] (ownCells options) :=
    selectCells_start options amount feeRate _
  rw [hloop] at h
  obtain ⟨best, hbest, h⟩ :=
    (Avoids.firstPrefix (attempt_quiet options amount feeRate) [] (ownCells options)).bind_eq_error h
  cases best with
  | some best => cases h
  | none =>
    intro k hk
    have hnone := firstPrefix_eq_none.1 hbest k hk
    rw [List.nil_append] at hnone
    obtain ⟨-, ⟨-, hnot⟩ | ⟨_, hsome, -⟩⟩ := attempt_eq_ok (take_succ_ne_nil hk) hnone
    · exact hnot
    · exact absurd hsome (by simp)

end CkbDilithium.Sdk
