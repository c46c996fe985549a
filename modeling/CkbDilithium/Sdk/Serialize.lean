import CkbDilithium.Lib.Molecule
import CkbDilithium.Sdk.HashType

/-!
# Serialization

The molecule serializers of `sdk/src/wallet.ts` and the conversions to the types of the JSON-RPC
interface. `serializeFixVec` and `serializeDynVec` write the molecule layouts whenever the numbers in
their headers fit 32 bits, and throw otherwise (`serializeFixVec_eq_ok`, `serializeDynVec_eq_ok`).
-/

namespace CkbDilithium.Sdk

open Js Molecule

/-! ### Vectors and tables -/

def serializeFixVec (items : List Bytes) : Js Bytes := do
  pure (concatBytes ((← u32ToLeBytes (JsNumber.ofNat items.length)) :: items))

/-- The `map` of `serializeDynVec` over the items, with the offset it advances. -/
def itemOffsets : (items : List Bytes) → (offset : Nat) → Js (List Bytes × Nat)
  | [], offset => pure ([], offset)
  | item :: items, offset => do
    let current ← u32ToLeBytes (JsNumber.ofNat offset)
    let (offsets, offset) ← itemOffsets items (offset + item.length)
    pure (current :: offsets, offset)

def serializeDynVec (items : List Bytes) : Js Bytes := do
  let headerSize := 4 + items.length * 4
  let (offsets, offset) ← itemOffsets items headerSize
  pure (concatBytes ((← u32ToLeBytes (JsNumber.ofNat offset)) :: (offsets ++ items)))

def serializeTable (fields : List Bytes) : Js Bytes := serializeDynVec fields

def serializeBytes (bytes : Bytes) : Js Bytes := serializeFixVec (bytes.map fun byte => [byte])

def serializeBytesVec (items : List Bytes) : Js Bytes := do serializeDynVec (← items.mapM serializeBytes)

def serializeByte32Vec (items : List Bytes) : Js Bytes := serializeFixVec items

/-! ### Witness arguments -/

def encodeOptionBytes : Option Bytes → Js Bytes
  | some value => serializeBytes value
  | none => pure []

def encodeWitnessArgs (lock : Option Bytes) : Js JsString := do
  let fields := [← encodeOptionBytes lock, ← encodeOptionBytes none, ← encodeOptionBytes none]
  pure (bytesToHex (← serializeTable fields))

/-! ### Transactions -/

/-- `u32ToLeBytes(Number(hexToBigInt(value)))`. -/
def quantityToLeBytes (value : JsString) : Js Bytes := do
  u32ToLeBytes (bigIntToNumber (← hexToBigInt value))

def serializeOutPoint (outPoint : OutPoint) : Js Bytes := do
  pure (concatBytes [← hexToBytes outPoint.txHash, ← quantityToLeBytes outPoint.index])

def serializeScript (script : LockScript) : Js Bytes := do
  let codeHash ← hexToBytes script.codeHash
  let hashType ← hashTypeByte script.hashType
  let args ← serializeBytes (← hexToBytes script.args)
  serializeTable [codeHash, [UInt8.ofNat hashType], args]

def serializeScriptOpt : Option LockScript → Js Bytes
  | some script => serializeScript script
  | none => pure []

def serializeCellOutput (output : CellOutput) : Js Bytes := do
  let capacity ← u64ToLeBytes (← hexToBigInt output.capacity)
  let lock ← serializeScript output.lock
  let type ← serializeScriptOpt output.type
  serializeTable [capacity, lock, type]

def serializeCellOutputVec (outputs : List CellOutput) : Js Bytes := do
  serializeDynVec (← outputs.mapM serializeCellOutput)

/-- One item of `serializeCellInputVec`. -/
def serializeCellInput (input : TransactionInput) : Js Bytes := do
  let since ← u64ToLeBytes (← hexToBigInt input.since)
  pure (concatBytes [since, ← serializeOutPoint input.previousOutput])

def serializeCellInputVec (inputs : List TransactionInput) : Js Bytes := do
  serializeFixVec (← inputs.mapM serializeCellInput)

/-- One item of `serializeCellDepVec`. -/
def serializeCellDep (cellDep : CellDep) : Js Bytes := do
  pure (concatBytes [← serializeOutPoint cellDep.outPoint, [if cellDep.depType = .code then 0 else 1]])

def serializeCellDepVec (cellDeps : List CellDep) : Js Bytes := do
  serializeFixVec (← cellDeps.mapM serializeCellDep)

def serializeRawTransaction (rawTransaction : RawTransaction) : Js Bytes := do
  let version ← quantityToLeBytes rawTransaction.version
  let cellDeps ← serializeCellDepVec rawTransaction.cellDeps
  let headerDeps ← serializeByte32Vec (← rawTransaction.headerDeps.mapM hexToBytes)
  let inputs ← serializeCellInputVec rawTransaction.inputs
  let outputs ← serializeCellOutputVec rawTransaction.outputs
  let outputsData ← serializeBytesVec (← rawTransaction.outputsData.mapM hexToBytes)
  serializeTable [version, cellDeps, headerDeps, inputs, outputs, outputsData]

def serializeTransaction (transaction : Transaction) : Js Bytes := do
  let raw ← serializeRawTransaction transaction.toRawTransaction
  let witnesses ← serializeBytesVec (← transaction.witnesses.mapM hexToBytes)
  serializeTable [raw, witnesses]

/-! ### The JSON-RPC types -/

inductive RpcDepType where
  | code
  | depGroup
  deriving DecidableEq

structure RpcScript where
  codeHash : JsString
  hashType : JsString
  args : JsString
  deriving DecidableEq

structure RpcOutPoint where
  txHash : JsString
  index : JsString
  deriving DecidableEq

structure RpcCellDep where
  outPoint : RpcOutPoint
  depType : RpcDepType
  deriving DecidableEq

structure RpcCellOutput where
  capacity : JsString
  lock : RpcScript
  type : Option RpcScript
  deriving DecidableEq

structure RpcInput where
  previousOutput : RpcOutPoint
  since : JsString
  deriving DecidableEq

structure RpcTransaction where
  version : JsString
  cellDeps : List RpcCellDep
  headerDeps : List JsString
  inputs : List RpcInput
  outputs : List RpcCellOutput
  outputsData : List JsString
  witnesses : List JsString
  deriving DecidableEq

def toRpcScript (lock : LockScript) : RpcScript := ⟨lock.codeHash, lock.hashType, lock.args⟩

def toRpcOutPoint (outPoint : OutPoint) : RpcOutPoint := ⟨outPoint.txHash, outPoint.index⟩

def toRpcCellDep (cellDep : CellDep) : RpcCellDep where
  outPoint := toRpcOutPoint cellDep.outPoint
  depType := if cellDep.depType = .code then .code else .depGroup

def toRpcCellOutput (output : CellOutput) : RpcCellOutput where
  capacity := output.capacity
  lock := toRpcScript output.lock
  type := output.type.map toRpcScript

def toRpcInput (input : TransactionInput) : RpcInput where
  previousOutput := toRpcOutPoint input.previousOutput
  since := input.since

def toRpcTransaction (transaction : Transaction) : RpcTransaction where
  version := transaction.version
  cellDeps := transaction.cellDeps.map toRpcCellDep
  headerDeps := transaction.headerDeps
  inputs := transaction.inputs.map toRpcInput
  outputs := transaction.outputs.map toRpcCellOutput
  outputsData := transaction.outputsData
  witnesses := transaction.witnesses

/-! ### The layouts that are written -/

theorem serializeFixVec_eq_ok {items : List Bytes} {bytes : Bytes} :
    serializeFixVec items = .ok bytes ↔ items.length < 2 ^ 32 ∧ bytes = encodeFixVec items := by
  simp only [serializeFixVec, Result.bind_eq_ok, u32ToLeBytes_ofNat, Result.pure_eq_ok]
  constructor
  · intro h
    rcases h with ⟨_, ⟨hlen, rfl⟩, rfl⟩
    exact ⟨hlen, rfl⟩
  · intro h
    rcases h with ⟨hlen, rfl⟩
    exact ⟨_, ⟨hlen, rfl⟩, rfl⟩

/-- The loop writes the offsets of the items, each of which must fit 32 bits, and returns the end. -/
theorem itemOffsets_eq_ok {items : List Bytes} {offset final : Nat} {written : List Bytes} :
    itemOffsets items offset = .ok (written, final) ↔
      (∀ o ∈ offsets offset items, o < 2 ^ 32) ∧ written = (offsets offset items).map (leBytes 4) ∧
        final = offset + items.flatten.length := by
  induction items generalizing offset final written with
  | nil =>
    simp only [itemOffsets, Result.pure_eq_ok, Prod.mk.injEq, offsets_nil, List.map_nil, List.flatten_nil,
      List.length_nil, Nat.add_zero, List.not_mem_nil, false_implies, implies_true, true_and]
    exact and_congr eq_comm eq_comm
  | cons item items ih =>
    simp only [itemOffsets, Result.bind_eq_ok, u32ToLeBytes_ofNat, Prod.exists, Result.pure_eq_ok,
      Prod.mk.injEq, ih, offsets_cons, List.mem_cons, forall_eq_or_imp, List.map_cons, List.flatten_cons,
      List.length_append]
    constructor
    · intro h
      rcases h with ⟨_, ⟨hlt, rfl⟩, _, _, ⟨hoffsets, rfl, rfl⟩, rfl, rfl⟩
      exact ⟨⟨hlt, hoffsets⟩, rfl, Nat.add_assoc ..⟩
    · intro h
      rcases h with ⟨⟨hlt, hoffsets⟩, rfl, rfl⟩
      exact ⟨_, ⟨hlt, rfl⟩, _, _, ⟨hoffsets, rfl, rfl⟩, rfl, Nat.add_assoc ..⟩

theorem serializeDynVec_eq_ok {items : List Bytes} {bytes : Bytes} :
    serializeDynVec items = .ok bytes ↔
      headerSize items + items.flatten.length < 2 ^ 32 ∧ bytes = encodeDynVec items := by
  have hheader : 4 + items.length * 4 = headerSize items := by rw [headerSize, Nat.mul_comm]
  have hbytes : concatBytes (leBytes 4 (headerSize items + items.flatten.length) ::
      ((offsets (headerSize items) items).map (leBytes 4) ++ items)) = encodeDynVec items := by
    rw [concatBytes, encodeDynVec, List.flatten_cons, List.flatten_append, ← List.flatMap_def,
      List.append_assoc]
  simp only [serializeDynVec, Result.bind_eq_ok, u32ToLeBytes_ofNat, Prod.exists, Result.pure_eq_ok,
    itemOffsets_eq_ok, hheader]
  constructor
  · intro h
    rcases h with ⟨_, _, ⟨hoffsets, rfl, rfl⟩, _, ⟨hlt, rfl⟩, rfl⟩
    exact ⟨hlt, hbytes⟩
  · intro h
    rcases h with ⟨hlt, rfl⟩
    refine ⟨_, _, ⟨fun o ho => ?_, rfl, rfl⟩, _, ⟨hlt, rfl⟩, hbytes⟩
    exact lt_of_le_of_lt (offsets_le ho) hlt

theorem serializeTable_eq_ok {fields : List Bytes} {bytes : Bytes} :
    serializeTable fields = .ok bytes ↔
      headerSize fields + fields.flatten.length < 2 ^ 32 ∧ bytes = encodeDynVec fields :=
  serializeDynVec_eq_ok

theorem serializeBytes_eq_ok {value bytes : Bytes} :
    serializeBytes value = .ok bytes ↔
      value.length < 2 ^ 32 ∧ bytes = encodeFixVec (value.map fun byte => [byte]) := by
  rw [serializeBytes, serializeFixVec_eq_ok, List.length_map]

end CkbDilithium.Sdk
