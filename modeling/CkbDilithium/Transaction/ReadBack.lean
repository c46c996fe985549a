import CkbDilithium.Transaction.Values

/-!
# The serialization commits to the transaction

Reading a serialized well-formed transaction with the molecule reader of the on-chain schema gives
the values of its fields, at every number of dependencies, inputs, outputs and data items
(`readRawTransaction_serialize`). The same values are submitted to the node (`toRpcTransaction_value`),
so two transactions with one serialization are the same transaction up to letter case and leading
zeros.
-/

namespace CkbDilithium.Sdk

open Js Molecule Ckb

/-! ### Fixed-size parts -/

theorem serializeOutPoint_eq {outPoint : OutPoint} (h : outPoint.WellFormed) :
    serializeOutPoint outPoint =
      .ok (hexValue outPoint.txHash ++ leBytes 4 (quantityValue outPoint.index)) := by
  simp [serializeOutPoint, hexToBytes_of_isHex h.txHash.isHex, quantityToLeBytes_of_isQuantity h.index,
    concatBytes, pure, Except.pure]

theorem readOutPoint_serialize {outPoint : OutPoint} (h : outPoint.WellFormed) :
    readOutPoint (hexValue outPoint.txHash ++ leBytes 4 (quantityValue outPoint.index)) =
      some outPoint.value := by
  have hlen := hexValue_length h.txHash
  have hlt : quantityValue outPoint.index < 256 ^ 4 := by
    have := h.index.choose_spec.2.2
    omega
  simp [readOutPoint, List.take_left' hlen, List.drop_left' hlen, readArray_of_length hlen,
    readUint_leBytes hlt, OutPoint.value]

theorem serializeOutPoint_length {outPoint : OutPoint} (h : outPoint.WellFormed) :
    (hexValue outPoint.txHash ++ leBytes 4 (quantityValue outPoint.index)).length = 36 := by
  rw [List.length_append, hexValue_length h.txHash, leBytes_length]

theorem serializeCellDep_read {cellDep : CellDep} {bytes : Bytes} (h : cellDep.outPoint.WellFormed)
    (hser : serializeCellDep cellDep = .ok bytes) :
    bytes.length = 37 ∧ readCellDep bytes = some cellDep.value := by
  simp only [serializeCellDep, serializeOutPoint_eq h, Result.ok_bind, Result.pure_eq_ok] at hser
  have hlen := serializeOutPoint_length h
  have hread := readOutPoint_serialize h
  set point := hexValue cellDep.outPoint.txHash ++ leBytes 4 (quantityValue cellDep.outPoint.index)
  have hbytes : bytes = point ++ [cellDep.depType.value] := by
    rw [← hser]
    cases cellDep.depType <;> simp [concatBytes, DepType.value]
  subst hbytes
  refine ⟨by simp [hlen], ?_⟩
  simp [readCellDep, List.take_left' hlen, List.drop_left' hlen, hread, readByte, CellDep.value]

theorem serializeCellInput_read {input : TransactionInput} {bytes : Bytes} (h : input.WellFormed)
    (hser : serializeCellInput input = .ok bytes) :
    bytes.length = 44 ∧ readCellInput bytes = some input.value := by
  have hlt : quantityValue input.since < 256 ^ 8 := by
    have := h.since.choose_spec.2.2
    omega
  have hlen := serializeOutPoint_length h.previousOutput
  have hread := readOutPoint_serialize h.previousOutput
  have hsince := u64ToLeBytes_of_isQuantity h.since
  simp only [serializeCellInput, serializeOutPoint_eq h.previousOutput, ← bind_assoc, hsince, Result.ok_bind,
    Result.pure_eq_ok] at hser
  set point := hexValue input.previousOutput.txHash ++ leBytes 4 (quantityValue input.previousOutput.index)
  have hbytes : bytes = leBytes 8 (quantityValue input.since) ++ point := by
    rw [← hser]
    simp [concatBytes]
  subst hbytes
  have htake : (leBytes 8 (quantityValue input.since) ++ point).take 8 = leBytes 8 (quantityValue input.since) :=
    List.take_left' (leBytes_length ..)
  have hdrop : (leBytes 8 (quantityValue input.since) ++ point).drop 8 = point :=
    List.drop_left' (leBytes_length ..)
  refine ⟨by simp [hlen], ?_⟩
  simp [readCellInput, htake, hdrop, hread, readUint_leBytes hlt, TransactionInput.value]

/-! ### Tables -/

theorem serializeScript_read {script : LockScript} {bytes : Bytes} (h : script.WellFormed)
    (hser : serializeScript script = .ok bytes) :
    bytes ≠ [] ∧ readScript bytes = some script.value := by
  obtain ⟨byte, hbyte⟩ := h.hashType
  simp only [serializeScript, hexToBytes_of_isHex h.codeHash.isHex, hexToBytes_of_isHex h.args,
    hbyte.hashTypeByte_eq, Result.ok_bind, Result.bind_eq_ok, serializeBytes_eq_ok, serializeTable_eq_ok] at hser
  obtain ⟨_, ⟨hargs, rfl⟩, hlt, rfl⟩ := hser
  refine ⟨fun hnil => ?_, ?_⟩
  · have hlen := encodeDynVec_length [hexValue script.codeHash, [UInt8.ofNat byte],
      encodeFixVec ((hexValue script.args).map fun byte => [byte])]
    rw [hnil, headerSize] at hlen
    simp at hlen
  · rw [readScript_encode (hexValue_length h.codeHash) hargs hlt, LockScript.value, hbyte.hashTypeValue_eq]

theorem serializeScriptOpt_read {script : Option LockScript} {bytes : Bytes}
    (h : ∀ s ∈ script, s.WellFormed) (hser : serializeScriptOpt script = .ok bytes) :
    readOption readScript bytes = some (script.map LockScript.value) := by
  cases script with
  | none =>
    simp only [serializeScriptOpt, Result.pure_eq_ok] at hser
    rw [← hser, readOption_nil, Option.map_none]
  | some s =>
    obtain ⟨hne, hread⟩ := serializeScript_read (h s rfl) hser
    rw [readOption_of_ne_nil hne hread, Option.map_some]

theorem serializeCellOutput_read {output : CellOutput} {bytes : Bytes} (h : output.WellFormed)
    (hser : serializeCellOutput output = .ok bytes) : readCellOutput bytes = some output.value := by
  have hlt : quantityValue output.capacity < 256 ^ 8 := by
    have := h.capacity.choose_spec.2.2
    omega
  have hcapacity := u64ToLeBytes_of_isQuantity h.capacity
  simp only [serializeCellOutput, ← bind_assoc, hcapacity] at hser
  simp only [Result.ok_bind, Result.bind_eq_ok, serializeTable_eq_ok] at hser
  obtain ⟨lock, hlock, type, htype, hsize, rfl⟩ := hser
  have htable := readTable_encode hsize
  simp only [List.length_cons, List.length_nil, Nat.zero_add, Nat.reduceAdd] at htable
  simp [readCellOutput, htable, readUint_leBytes hlt, (serializeScript_read h.lock hlock).2,
    serializeScriptOpt_read h.type htype, CellOutput.value]

/-! ### Vectors -/

theorem serializeBytes_read {value bytes : Bytes} (h : serializeBytes value = .ok bytes) :
    readBytes bytes = some value := by
  obtain ⟨hlen, rfl⟩ := serializeBytes_eq_ok.1 h
  exact readBytes_encode hlen

theorem mapM_hexToBytes {strings : List JsString} (h : ∀ s ∈ strings, IsHex s) :
    strings.mapM hexToBytes = .ok (strings.map hexValue) :=
  Result.mapM_of_forall_ok fun s hs => hexToBytes_of_isHex (h s hs)

theorem serializeBytesVec_read {items : List Bytes} {bytes : Bytes} (h : serializeBytesVec items = .ok bytes) :
    (readDynVec bytes).bind (·.mapM readBytes) = some items := by
  simp only [serializeBytesVec, Result.bind_eq_ok, serializeDynVec_eq_ok] at h
  obtain ⟨written, hwritten, hsize, rfl⟩ := h
  rw [readDynVec_encode hsize, Option.bind_some]
  simpa using Result.mapM_read hwritten fun item _ y hy => serializeBytes_read hy

theorem serializeCellOutputVec_read {outputs : List CellOutput} {bytes : Bytes}
    (hwf : ∀ output ∈ outputs, output.WellFormed) (h : serializeCellOutputVec outputs = .ok bytes) :
    (readDynVec bytes).bind (·.mapM readCellOutput) = some (outputs.map CellOutput.value) := by
  simp only [serializeCellOutputVec, Result.bind_eq_ok, serializeDynVec_eq_ok] at h
  obtain ⟨written, hwritten, hsize, rfl⟩ := h
  rw [readDynVec_encode hsize, Option.bind_some]
  exact Result.mapM_read hwritten fun output ho y hy => serializeCellOutput_read (hwf output ho) hy

/-- A fixed-size vector reads back when every item has the size and reads back. -/
theorem fixVec_read {α β : Type} {write : α → Js Bytes} {read : Bytes → Option β} {value : α → β} {size : Nat}
    {items : List α} {written : List Bytes} {bytes : Bytes} (hwritten : items.mapM write = .ok written)
    (hread : ∀ x ∈ items, ∀ y, write x = .ok y → y.length = size ∧ read y = some (value x))
    (h : serializeFixVec written = .ok bytes) :
    (readFixVec size bytes).bind (·.mapM read) = some (items.map value) := by
  obtain ⟨hcount, rfl⟩ := serializeFixVec_eq_ok.1 h
  have hsize : ∀ y ∈ written, y.length = size := by
    intro y hy
    obtain ⟨i, hi, rfl⟩ := List.getElem_of_mem hy
    have hforall := Result.mapM_eq_ok.1 hwritten
    have hi' : i < items.length := by rw [hforall.length_eq]; exact hi
    exact (hread _ (List.getElem_mem hi') _ ((List.forall₂_iff_get.1 hforall).2 i hi' hi)).1
  rw [readFixVec_encode hsize hcount, Option.bind_some]
  exact Result.mapM_read hwritten fun x hx y hy => (hread x hx y hy).2

/-! ### The whole transaction -/

/-- **The molecule reader returns the values of the fields.** -/
theorem readRawTransaction_serialize {tx : RawTransaction} {bytes : Bytes} (hwf : tx.WellFormed)
    (hser : serializeRawTransaction tx = .ok bytes) : readRawTransaction bytes = some tx.value := by
  have hversion : quantityValue tx.version < 256 ^ 4 := by
    have := hwf.version.choose_spec.2.2
    omega
  simp only [serializeRawTransaction, quantityToLeBytes_of_isQuantity hwf.version, Result.ok_bind,
    mapM_hexToBytes fun s hs => (hwf.headerDeps s hs).isHex, mapM_hexToBytes hwf.outputsData,
    Result.bind_eq_ok, serializeTable_eq_ok, serializeCellDepVec, serializeCellInputVec] at hser
  obtain ⟨cellDeps, ⟨depItems, hdepItems, hdeps⟩, headerDeps, hheaders, inputs, ⟨inputItems, hinputItems, hinputs⟩,
    outputs, houtputs, outputsData, hdata, hsize, rfl⟩ := hser
  have htable := readTable_encode hsize
  simp only [List.length_cons, List.length_nil, Nat.zero_add, Nat.reduceAdd] at htable
  have hdepsRead := fixVec_read hdepItems
    (fun cellDep h y hy => serializeCellDep_read (hwf.cellDeps cellDep h) hy) hdeps
  have hinputsRead := fixVec_read hinputItems
    (fun input h y hy => serializeCellInput_read (hwf.inputs input h) hy) hinputs
  have hheadersRead : (readFixVec 32 headerDeps).bind (·.mapM (readArray 32)) =
      some (tx.headerDeps.map hexValue) := by
    refine fixVec_read (mapM_hexToBytes fun s hs => (hwf.headerDeps s hs).isHex) (fun s hs y hy => ?_) hheaders
    rw [hexToBytes_of_isHex (hwf.headerDeps s hs).isHex, Except.ok.injEq] at hy
    have hlen := hexValue_length (hwf.headerDeps s hs)
    rw [← hy]
    exact ⟨hlen, readArray_of_length hlen⟩
  have houtputsRead := serializeCellOutputVec_read hwf.outputs houtputs
  have hdataRead := serializeBytesVec_read hdata
  obtain ⟨_, hdeps₁, hdeps₂⟩ := Option.bind_eq_some_iff.1 hdepsRead
  obtain ⟨_, hheaders₁, hheaders₂⟩ := Option.bind_eq_some_iff.1 hheadersRead
  obtain ⟨_, hinputs₁, hinputs₂⟩ := Option.bind_eq_some_iff.1 hinputsRead
  obtain ⟨_, houtputs₁, houtputs₂⟩ := Option.bind_eq_some_iff.1 houtputsRead
  obtain ⟨_, hdata₁, hdata₂⟩ := Option.bind_eq_some_iff.1 hdataRead
  simp [readRawTransaction, htable, readUint_leBytes hversion, hdeps₁, hdeps₂, hheaders₁, hheaders₂, hinputs₁,
    hinputs₂, houtputs₁, houtputs₂, hdata₁, hdata₂, RawTransaction.value]

/-! ### What is submitted -/

def RpcScript.value (script : RpcScript) : Ckb.Script :=
  ⟨hexValue script.codeHash, hashTypeValue script.hashType, hexValue script.args⟩

def RpcOutPoint.value (outPoint : RpcOutPoint) : Ckb.OutPoint :=
  ⟨hexValue outPoint.txHash, quantityValue outPoint.index⟩

def RpcDepType.value : RpcDepType → UInt8
  | .code => 0
  | .depGroup => 1

def RpcCellDep.value (cellDep : RpcCellDep) : Ckb.CellDep := ⟨cellDep.outPoint.value, cellDep.depType.value⟩

def RpcInput.value (input : RpcInput) : Ckb.CellInput :=
  ⟨quantityValue input.since, input.previousOutput.value⟩

def RpcCellOutput.value (output : RpcCellOutput) : Ckb.CellOutput :=
  ⟨quantityValue output.capacity, output.lock.value, output.type.map RpcScript.value⟩

/-- The raw transaction a node reads from the submitted object. -/
def RpcTransaction.value (tx : RpcTransaction) : Ckb.RawTransaction where
  version := quantityValue tx.version
  cellDeps := tx.cellDeps.map RpcCellDep.value
  headerDeps := tx.headerDeps.map hexValue
  inputs := tx.inputs.map RpcInput.value
  outputs := tx.outputs.map RpcCellOutput.value
  outputsData := tx.outputsData.map hexValue

theorem toRpcCellDep_value (cellDep : CellDep) : (toRpcCellDep cellDep).value = cellDep.value := by
  obtain ⟨outPoint, depType⟩ := cellDep
  cases depType <;> rfl

theorem toRpcCellOutput_value (output : CellOutput) : (toRpcCellOutput output).value = output.value := by
  rw [RpcCellOutput.value, toRpcCellOutput, CellOutput.value, Option.map_map]
  rfl

theorem toRpcTransaction_value (transaction : Transaction) :
    (toRpcTransaction transaction).value = transaction.toRawTransaction.value := by
  have hdeps : RpcCellDep.value ∘ toRpcCellDep = CellDep.value := funext toRpcCellDep_value
  have houtputs : RpcCellOutput.value ∘ toRpcCellOutput = CellOutput.value := funext toRpcCellOutput_value
  have hinputs : RpcInput.value ∘ toRpcInput = TransactionInput.value := rfl
  rw [RpcTransaction.value, toRpcTransaction, RawTransaction.value, List.map_map, List.map_map, List.map_map,
    hdeps, houtputs, hinputs]

/-- **The serialized bytes commit to one transaction**: they read back as its field values, which are
the submitted ones, and no other well-formed transaction has them, up to letter case and leading
zeros. -/
theorem serializeRawTransaction_commits {tx : RawTransaction} {bytes : Bytes} (hwf : tx.WellFormed)
    (hser : serializeRawTransaction tx = .ok bytes) :
    readRawTransaction bytes = some tx.value ∧
      (∀ witnesses, (toRpcTransaction { toRawTransaction := tx, witnesses }).value = tx.value) ∧
      ∀ tx' : RawTransaction, tx'.WellFormed → serializeRawTransaction tx' = .ok bytes →
        tx'.canonical = tx.canonical := by
  have hread := readRawTransaction_serialize hwf hser
  refine ⟨hread, fun witnesses => toRpcTransaction_value _, fun tx' hwf' hser' => ?_⟩
  have hread' := readRawTransaction_serialize hwf' hser'
  rw [hread, Option.some.injEq] at hread'
  exact RawTransaction.canonical_eq_of_value hwf' hwf hread'.symm

def sampleHash : JsString := lit "0x00112233445566778899aabbccddeeff00112233445566778899AABBCCDDEEFF"

/-- One dependency, one input, an output with a type script and one data item. -/
def sampleRawTransaction : RawTransaction where
  version := lit "0x0"
  cellDeps := [⟨⟨sampleHash, lit "0x1"⟩, .depGroup⟩]
  headerDeps := [sampleHash]
  inputs := [⟨⟨sampleHash, lit "0xA"⟩, lit "0x0"⟩]
  outputs := [⟨lit "0x174876e800", ⟨sampleHash, lit "data1", lit "0x0102"⟩, some ⟨sampleHash, lit "type", lit "0x"⟩⟩]
  outputsData := [lit "0xc0FFee"]

theorem isHash_sampleHash : IsHash sampleHash := by decide

theorem sampleRawTransaction_wellFormed : sampleRawTransaction.WellFormed := by
  have hquantity : ∀ n ∈ [lit "0x0", lit "0x1", lit "0xA"], IsQuantity 32 n := by decide
  have hwide : ∀ n ∈ [lit "0x0", lit "0x174876e800"], IsQuantity 64 n := by decide
  have hhex : ∀ s ∈ [lit "0x0102", lit "0x", lit "0xc0FFee"], IsHex s := by decide
  have hdata1 : CanonicalHashType (lit "data1") := ⟨2, HashTypeByte.version (n := 1) (by decide) (by decide)⟩
  have hlock : (⟨sampleHash, lit "data1", lit "0x0102"⟩ : LockScript).WellFormed :=
    ⟨isHash_sampleHash, hdata1, hhex _ (by simp)⟩
  have htype : (⟨sampleHash, lit "type", lit "0x"⟩ : LockScript).WellFormed :=
    ⟨isHash_sampleHash, ⟨1, HashTypeByte.type⟩, hhex _ (by simp)⟩
  refine ⟨hquantity (lit "0x0") (by simp), ?_, ?_, ?_, ?_, ?_⟩ <;>
    simp only [sampleRawTransaction, List.mem_singleton, forall_eq]
  · exact ⟨isHash_sampleHash, hquantity _ (by simp)⟩
  · exact isHash_sampleHash
  · exact ⟨hwide _ (by simp), isHash_sampleHash, hquantity _ (by simp)⟩
  · exact ⟨hwide _ (by simp), hlock, fun script hscript => Option.some.inj hscript ▸ htype⟩
  · exact hhex _ (by simp)

theorem serializeRawTransaction_commits_sample :
    ∃ bytes, serializeRawTransaction sampleRawTransaction = .ok bytes ∧
      readRawTransaction bytes = some sampleRawTransaction.value ∧
      (∀ witnesses, (toRpcTransaction { toRawTransaction := sampleRawTransaction, witnesses }).value =
        sampleRawTransaction.value) ∧
      ∀ tx' : RawTransaction, tx'.WellFormed → serializeRawTransaction tx' = .ok bytes →
        tx'.canonical = sampleRawTransaction.canonical := by
  have hreturns : (serializeRawTransaction sampleRawTransaction).toBool = true := by decide +kernel
  obtain ⟨bytes, hser⟩ | ⟨e, herror⟩ := Result.ok_or_error (serializeRawTransaction sampleRawTransaction)
  · exact ⟨bytes, hser, serializeRawTransaction_commits sampleRawTransaction_wellFormed hser⟩
  · rw [herror] at hreturns
    exact absurd hreturns Bool.false_ne_true

end CkbDilithium.Sdk
