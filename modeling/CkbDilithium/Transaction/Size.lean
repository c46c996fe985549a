import CkbDilithium.Transaction.Values

/-!
# Serialized sizes

The length of every serialized part is arithmetic on the numbers of bytes its hex strings denote
(`serializeRawTransaction_size`, `serializeTransaction_size`), and a well-formed transaction whose
size fits the 32-bit headers is serialized (`serializeTransaction_returns`).
-/

namespace CkbDilithium.Sdk

open Js Molecule

/-- The number of bytes a hex string denotes. -/
def hexSize (s : JsString) : Nat := (hexValue s).length

theorem hexToBytes_hexValue {s : JsString} {bytes : Bytes} (h : hexToBytes s = .ok bytes) :
    bytes = hexValue s := by
  obtain ⟨hex, rfl, -, rfl⟩ := hexToBytes_eq_ok.1 h
  rw [hexValue, drop_hexPrefix]

theorem hexToBytes_hexSize {s : JsString} {bytes : Bytes} (h : hexToBytes s = .ok bytes) :
    bytes.length = hexSize s := by
  rw [hexSize, ← hexToBytes_hexValue h]

theorem hexValue_bytesToHex (bytes : Bytes) : hexValue (bytesToHex bytes) = bytes :=
  (hexToBytes_hexValue (hexToBytes_bytesToHex bytes)).symm

theorem hexSize_bytesToHex (bytes : Bytes) : hexSize (bytesToHex bytes) = bytes.length := by
  rw [hexSize, hexValue_bytesToHex]

/-! ### Vectors -/

/-- The joined length of the parts of a traversal. -/
theorem mapM_flatten_length {α : Type} {write : α → Js Bytes} (size : α → Nat) {items : List α}
    {written : List Bytes} (h : items.mapM write = .ok written)
    (hsize : ∀ x y, write x = .ok y → y.length = size x) :
    written.flatten.length = (items.map size).sum := by
  rw [List.length_flatten, Result.mapM_map size h hsize]

theorem encodeFixVec_length (items : List Bytes) : (encodeFixVec items).length = 4 + items.flatten.length := by
  rw [encodeFixVec, List.length_append, leBytes_length]

/-- A byte string is written behind its length. -/
theorem encodeBytes_length (value : Bytes) :
    (encodeFixVec (value.map fun byte => [byte])).length = 4 + value.length := by
  have hflatten : (value.map fun byte => [byte]).flatten.length = 1 * (value.map fun byte => [byte]).length :=
    flatten_length_of_size (by simp)
  rw [encodeFixVec_length, hflatten, List.length_map, one_mul]

theorem serializeBytes_length {value bytes : Bytes} (h : serializeBytes value = .ok bytes) :
    bytes.length = 4 + value.length := by
  obtain ⟨-, rfl⟩ := serializeBytes_eq_ok.1 h
  exact encodeBytes_length value

theorem fixVec_length {α : Type} {write : α → Js Bytes} (size : α → Nat) {items : List α}
    {written : List Bytes} {bytes : Bytes} (hwritten : items.mapM write = .ok written)
    (hsize : ∀ x y, write x = .ok y → y.length = size x) (h : serializeFixVec written = .ok bytes) :
    bytes.length = 4 + (items.map size).sum := by
  obtain ⟨-, rfl⟩ := serializeFixVec_eq_ok.1 h
  rw [encodeFixVec_length, mapM_flatten_length size hwritten hsize]

theorem dynVec_length {α : Type} {write : α → Js Bytes} (size : α → Nat) {items : List α}
    {written : List Bytes} {bytes : Bytes} (hwritten : items.mapM write = .ok written)
    (hsize : ∀ x y, write x = .ok y → y.length = size x) (h : serializeDynVec written = .ok bytes) :
    bytes.length = 4 + 4 * items.length + (items.map size).sum := by
  obtain ⟨-, rfl⟩ := serializeDynVec_eq_ok.1 h
  rw [encodeDynVec_length, headerSize, mapM_flatten_length size hwritten hsize, Result.mapM_length hwritten]

theorem serializeBytesVec_length {strings : List JsString} {items : List Bytes} {bytes : Bytes}
    (hitems : strings.mapM hexToBytes = .ok items) (h : serializeBytesVec items = .ok bytes) :
    bytes.length = 4 + 8 * strings.length + (strings.map hexSize).sum := by
  simp only [serializeBytesVec, Result.bind_eq_ok] at h
  obtain ⟨written, hwritten, h⟩ := h
  have hlen := dynVec_length (fun item => 4 + item.length) hwritten (fun _ _ => serializeBytes_length) h
  have hflatten := mapM_flatten_length hexSize hitems fun _ _ => hexToBytes_hexSize
  rw [List.length_flatten] at hflatten
  rw [hlen, List.sum_map_add, List.map_const', List.sum_replicate, smul_eq_mul, hflatten,
    Result.mapM_length hitems]
  omega

/-! ### Transactions -/

def scriptSize (script : LockScript) : Nat := 21 + hexSize script.codeHash + hexSize script.args

def cellOutputSize (output : CellOutput) : Nat :=
  24 + scriptSize output.lock + (output.type.map scriptSize).getD 0

def RawTransaction.size (tx : RawTransaction) : Nat :=
  52 + (tx.cellDeps.map fun cellDep => 5 + hexSize cellDep.outPoint.txHash).sum +
    (tx.headerDeps.map hexSize).sum +
    (tx.inputs.map fun input => 12 + hexSize input.previousOutput.txHash).sum +
    (4 * tx.outputs.length + (tx.outputs.map cellOutputSize).sum) +
    (8 * tx.outputsData.length + (tx.outputsData.map hexSize).sum)

theorem quantityToLeBytes_length {s : JsString} {bytes : Bytes} (h : quantityToLeBytes s = .ok bytes) :
    bytes.length = 4 := by
  simp only [quantityToLeBytes, Result.bind_eq_ok] at h
  obtain ⟨v, -, hv⟩ := h
  exact u32ToLeBytes_eq_ok hv

theorem serializeOutPoint_size {outPoint : OutPoint} {bytes : Bytes} (h : serializeOutPoint outPoint = .ok bytes) :
    bytes.length = 4 + hexSize outPoint.txHash := by
  simp only [serializeOutPoint, Result.bind_eq_ok, Result.pure_eq_ok] at h
  obtain ⟨hash, hhash, index, hindex, rfl⟩ := h
  simp only [concatBytes, List.flatten_cons, List.flatten_nil, List.append_nil, List.length_append,
    hexToBytes_hexSize hhash, quantityToLeBytes_length hindex]
  omega

theorem serializeCellDep_size {cellDep : CellDep} {bytes : Bytes} (h : serializeCellDep cellDep = .ok bytes) :
    bytes.length = 5 + hexSize cellDep.outPoint.txHash := by
  simp only [serializeCellDep, Result.bind_eq_ok, Result.pure_eq_ok] at h
  obtain ⟨point, hpoint, rfl⟩ := h
  simp only [concatBytes, List.flatten_cons, List.flatten_nil, List.append_nil, List.length_append,
    List.length_singleton, serializeOutPoint_size hpoint]
  omega

theorem serializeCellInput_size {input : TransactionInput} {bytes : Bytes}
    (h : serializeCellInput input = .ok bytes) :
    bytes.length = 12 + hexSize input.previousOutput.txHash := by
  simp only [serializeCellInput, Result.bind_eq_ok, Result.pure_eq_ok, u64ToLeBytes_eq_ok] at h
  obtain ⟨v, -, _, ⟨-, -, rfl⟩, point, hpoint, rfl⟩ := h
  simp only [concatBytes, List.flatten_cons, List.flatten_nil, List.append_nil, List.length_append,
    leBytes_length, serializeOutPoint_size hpoint]
  omega

theorem serializeScript_size {script : LockScript} {bytes : Bytes} (h : serializeScript script = .ok bytes) :
    bytes.length = scriptSize script := by
  simp only [serializeScript, Result.bind_eq_ok, serializeTable_eq_ok] at h
  obtain ⟨codeHash, hcode, byte, -, argBytes, hargBytes, args, hargs, -, rfl⟩ := h
  simp only [encodeDynVec_length, headerSize, List.flatten_cons, List.flatten_nil, List.append_nil,
    List.length_append, List.length_cons, List.length_nil, hexToBytes_hexSize hcode,
    serializeBytes_length hargs, hexToBytes_hexSize hargBytes, scriptSize]
  omega

theorem serializeScriptOpt_size {script : Option LockScript} {bytes : Bytes}
    (h : serializeScriptOpt script = .ok bytes) : bytes.length = (script.map scriptSize).getD 0 := by
  cases script with
  | none =>
    simp only [serializeScriptOpt, Result.pure_eq_ok] at h
    rw [← h]
    rfl
  | some script => exact serializeScript_size h

theorem serializeCellOutput_size {output : CellOutput} {bytes : Bytes}
    (h : serializeCellOutput output = .ok bytes) : bytes.length = cellOutputSize output := by
  simp only [serializeCellOutput, Result.bind_eq_ok, serializeTable_eq_ok, u64ToLeBytes_eq_ok] at h
  obtain ⟨v, -, _, ⟨-, -, rfl⟩, lock, hlock, type, htype, -, rfl⟩ := h
  simp only [encodeDynVec_length, headerSize, List.flatten_cons, List.flatten_nil, List.append_nil,
    List.length_append, List.length_cons, List.length_nil, leBytes_length, serializeScript_size hlock,
    serializeScriptOpt_size htype, cellOutputSize]
  omega

theorem serializeRawTransaction_size {tx : RawTransaction} {bytes : Bytes}
    (h : serializeRawTransaction tx = .ok bytes) : bytes.length = tx.size := by
  simp only [serializeRawTransaction, Result.bind_eq_ok, serializeTable_eq_ok, serializeCellDepVec,
    serializeCellInputVec, serializeCellOutputVec, serializeByte32Vec] at h
  obtain ⟨version, hversion, deps, ⟨_, hdepItems, hdeps⟩, headerItems, hheaderItems, headers, hheaders,
    inputs, ⟨_, hinputItems, hinputs⟩, outputs, ⟨_, houtputItems, houtputs⟩, dataItems, hdataItems, data, hdata,
    -, rfl⟩ := h
  simp only [encodeDynVec_length, headerSize, List.flatten_cons, List.flatten_nil, List.append_nil,
    List.length_append, List.length_cons, List.length_nil, quantityToLeBytes_length hversion,
    fixVec_length _ hdepItems (fun _ _ => serializeCellDep_size) hdeps,
    fixVec_length _ hheaderItems (fun _ _ => hexToBytes_hexSize) hheaders,
    fixVec_length _ hinputItems (fun _ _ => serializeCellInput_size) hinputs,
    dynVec_length _ houtputItems (fun _ _ => serializeCellOutput_size) houtputs,
    serializeBytesVec_length hdataItems hdata, RawTransaction.size]
  omega

theorem serializeTransaction_size {tx : Transaction} {bytes : Bytes} (h : serializeTransaction tx = .ok bytes) :
    bytes.length = 16 + tx.toRawTransaction.size + 8 * tx.witnesses.length + (tx.witnesses.map hexSize).sum := by
  simp only [serializeTransaction, Result.bind_eq_ok, serializeTable_eq_ok] at h
  obtain ⟨raw, hraw, witnessItems, hwitnessItems, witnesses, hwitnesses, -, rfl⟩ := h
  simp only [encodeDynVec_length, headerSize, List.flatten_cons, List.flatten_nil, List.append_nil,
    List.length_append, List.length_cons, List.length_nil, serializeRawTransaction_size hraw,
    serializeBytesVec_length hwitnessItems hwitnesses]
  omega

/-! ### Serialization returns -/

theorem serializeBytes_returns (value : Bytes) (h : value.length < 2 ^ 32) :
    ∃ bytes, serializeBytes value = .ok bytes :=
  ⟨_, serializeBytes_eq_ok.2 ⟨h, rfl⟩⟩

theorem serializeOutPoint_returns {outPoint : OutPoint} (h : outPoint.WellFormed) :
    ∃ bytes, serializeOutPoint outPoint = .ok bytes := by
  simp only [serializeOutPoint, hexToBytes_of_isHex h.txHash.isHex, quantityToLeBytes_of_isQuantity h.index,
    Result.ok_bind]
  exact ⟨_, rfl⟩

theorem serializeCellDep_returns {cellDep : CellDep} (h : cellDep.outPoint.WellFormed) :
    ∃ bytes, serializeCellDep cellDep = .ok bytes := by
  obtain ⟨point, hpoint⟩ := serializeOutPoint_returns h
  simp only [serializeCellDep, hpoint, Result.ok_bind]
  exact ⟨_, rfl⟩

theorem serializeCellInput_returns {input : TransactionInput} (h : input.WellFormed) :
    ∃ bytes, serializeCellInput input = .ok bytes := by
  obtain ⟨point, hpoint⟩ := serializeOutPoint_returns h.previousOutput
  have hsince := u64ToLeBytes_of_isQuantity h.since
  simp only [serializeCellInput, ← bind_assoc, hsince, hpoint, Result.ok_bind]
  exact ⟨_, rfl⟩

theorem serializeScript_returns {script : LockScript} (h : script.WellFormed) (hsize : scriptSize script < 2 ^ 32) :
    ∃ bytes, serializeScript script = .ok bytes := by
  obtain ⟨byte, hbyte⟩ := h.hashType
  unfold scriptSize hexSize at hsize
  obtain ⟨args, hargs⟩ := serializeBytes_returns (hexValue script.args) (by omega)
  have hlen := serializeBytes_length hargs
  simp only [serializeScript, hexToBytes_of_isHex h.codeHash.isHex, hexToBytes_of_isHex h.args,
    hbyte.hashTypeByte_eq, Result.ok_bind, hargs]
  refine ⟨_, serializeTable_eq_ok.2 ⟨?_, rfl⟩⟩
  simp only [headerSize, List.flatten_cons, List.flatten_nil, List.append_nil, List.length_append,
    List.length_cons, List.length_nil]
  omega

theorem serializeCellOutput_returns {output : CellOutput} (h : output.WellFormed)
    (hsize : cellOutputSize output < 2 ^ 32) : ∃ bytes, serializeCellOutput output = .ok bytes := by
  unfold cellOutputSize at hsize
  have hcapacity := u64ToLeBytes_of_isQuantity h.capacity
  obtain ⟨lock, hlock⟩ := serializeScript_returns h.lock (by omega)
  obtain ⟨type, htype⟩ : ∃ type, serializeScriptOpt output.type = .ok type := by
    cases hsome : output.type with
    | none => exact ⟨[], rfl⟩
    | some script =>
      rw [hsome, Option.map_some, Option.getD_some] at hsize
      exact serializeScript_returns (h.type script hsome) (by omega)
  have hlockLen := serializeScript_size hlock
  have htypeLen := serializeScriptOpt_size htype
  simp only [serializeCellOutput, ← bind_assoc, hcapacity]
  simp only [Result.ok_bind, hlock, htype]
  refine ⟨_, serializeTable_eq_ok.2 ⟨?_, rfl⟩⟩
  simp only [headerSize, List.flatten_cons, List.flatten_nil, List.append_nil, List.length_append,
    List.length_cons, List.length_nil, leBytes_length]
  omega

theorem le_sum_map {α : Type} (size : α → Nat) {items : List α} {x : α} (h : x ∈ items) :
    size x ≤ (items.map size).sum :=
  List.single_le_sum (fun _ _ => Nat.zero_le _) _ (List.mem_map_of_mem h)

theorem fixVec_returns {α : Type} {write : α → Js Bytes} (items : List α) (hcount : items.length < 2 ^ 32)
    (h : ∀ x ∈ items, ∃ y, write x = .ok y) :
    ∃ written, items.mapM write = .ok written ∧ ∃ bytes, serializeFixVec written = .ok bytes := by
  obtain ⟨written, hwritten⟩ := Result.mapM_returns h
  refine ⟨written, hwritten, _, serializeFixVec_eq_ok.2 ⟨?_, rfl⟩⟩
  rwa [Result.mapM_length hwritten]

theorem dynVec_returns {α : Type} {write : α → Js Bytes} (size : α → Nat) (items : List α)
    (hsize : ∀ x y, write x = .ok y → y.length = size x)
    (hfits : 4 + 4 * items.length + (items.map size).sum < 2 ^ 32) (h : ∀ x ∈ items, ∃ y, write x = .ok y) :
    ∃ written, items.mapM write = .ok written ∧ ∃ bytes, serializeDynVec written = .ok bytes := by
  obtain ⟨written, hwritten⟩ := Result.mapM_returns h
  refine ⟨written, hwritten, _, serializeDynVec_eq_ok.2 ⟨?_, rfl⟩⟩
  rwa [headerSize, mapM_flatten_length size hwritten hsize, Result.mapM_length hwritten]

theorem serializeBytesVec_returns {strings : List JsString} (h : ∀ s ∈ strings, IsHex s)
    (hfits : 4 + 8 * strings.length + (strings.map hexSize).sum < 2 ^ 32) :
    ∃ items, strings.mapM hexToBytes = .ok items ∧ ∃ bytes, serializeBytesVec items = .ok bytes := by
  have hitems : strings.mapM hexToBytes = .ok (strings.map hexValue) :=
    Result.mapM_of_forall_ok fun s hs => hexToBytes_of_isHex (h s hs)
  refine ⟨_, hitems, ?_⟩
  have hsum : ((strings.map hexValue).map fun item => 4 + item.length).sum =
      4 * strings.length + (strings.map hexSize).sum := by
    rw [List.map_map]
    change (strings.map fun s => 4 + hexSize s).sum = _
    rw [List.sum_map_add, List.map_const', List.sum_replicate, smul_eq_mul, Nat.mul_comm]
  obtain ⟨written, hwritten, bytes, hbytes⟩ := dynVec_returns (fun item => 4 + item.length)
    (strings.map hexValue) (fun _ _ => serializeBytes_length) (by rw [hsum, List.length_map]; omega)
    (fun item hitem => serializeBytes_returns item (by
      have := le_sum_map (fun item => 4 + item.length) hitem
      omega))
  exact ⟨bytes, by simp only [serializeBytesVec, hwritten, Result.ok_bind, hbytes]⟩

theorem length_le_sum_map {α : Type} (size : α → Nat) (items : List α) (h : ∀ x ∈ items, 1 ≤ size x) :
    items.length ≤ (items.map size).sum := by
  have hlen := List.length_le_sum_of_one_le (items.map size) fun n hn => by
    obtain ⟨x, hx, rfl⟩ := List.mem_map.1 hn
    exact h x hx
  rwa [List.length_map] at hlen

theorem serializeRawTransaction_returns {tx : RawTransaction} (h : tx.WellFormed) (hsize : tx.size < 2 ^ 32) :
    ∃ bytes, serializeRawTransaction tx = .ok bytes := by
  have hwritten := hsize
  unfold RawTransaction.size at hwritten
  have hdepCount := length_le_sum_map (fun cellDep : CellDep => 5 + hexSize cellDep.outPoint.txHash)
    tx.cellDeps (fun _ _ => by omega)
  have hheaderCount := length_le_sum_map hexSize tx.headerDeps (fun s hs => by
    rw [hexSize, hexValue_length (h.headerDeps s hs)]
    omega)
  have hinputCount := length_le_sum_map (fun input : TransactionInput => 12 + hexSize input.previousOutput.txHash)
    tx.inputs (fun _ _ => by omega)
  obtain ⟨_, hdepItems, deps, hdeps⟩ := fixVec_returns tx.cellDeps (by omega)
    fun cellDep hd => serializeCellDep_returns (h.cellDeps cellDep hd)
  obtain ⟨_, hheaderItems, headers, hheaders⟩ := fixVec_returns tx.headerDeps (by omega)
    fun s hs => ⟨_, hexToBytes_of_isHex (h.headerDeps s hs).isHex⟩
  obtain ⟨_, hinputItems, inputs, hinputs⟩ := fixVec_returns tx.inputs (by omega)
    fun input hi => serializeCellInput_returns (h.inputs input hi)
  obtain ⟨_, houtputItems, outputs, houtputs⟩ := dynVec_returns cellOutputSize tx.outputs
    (fun _ _ => serializeCellOutput_size) (by omega) fun output ho =>
      serializeCellOutput_returns (h.outputs output ho) (by
        have := le_sum_map cellOutputSize ho
        omega)
  obtain ⟨_, hdataItems, data, hdata⟩ := serializeBytesVec_returns h.outputsData (by omega)
  simp only [serializeRawTransaction, quantityToLeBytes_of_isQuantity h.version, serializeCellDepVec,
    serializeByte32Vec, serializeCellInputVec, serializeCellOutputVec, Result.ok_bind, hdepItems, hdeps,
    hheaderItems, hheaders, hinputItems, hinputs, houtputItems, houtputs, hdataItems, hdata]
  refine ⟨_, serializeTable_eq_ok.2 ⟨?_, rfl⟩⟩
  simp only [headerSize, List.flatten_cons, List.flatten_nil, List.append_nil, List.length_append,
    List.length_cons, List.length_nil, leBytes_length,
    fixVec_length _ hdepItems (fun _ _ => serializeCellDep_size) hdeps,
    fixVec_length _ hheaderItems (fun _ _ => hexToBytes_hexSize) hheaders,
    fixVec_length _ hinputItems (fun _ _ => serializeCellInput_size) hinputs,
    dynVec_length _ houtputItems (fun _ _ => serializeCellOutput_size) houtputs,
    serializeBytesVec_length hdataItems hdata]
  omega

/-- **A well-formed transaction whose size fits is serialized.** -/
theorem serializeTransaction_returns {tx : Transaction} (h : tx.toRawTransaction.WellFormed)
    (hwitnesses : ∀ s ∈ tx.witnesses, IsHex s)
    (hsize : 16 + tx.toRawTransaction.size + 8 * tx.witnesses.length + (tx.witnesses.map hexSize).sum < 2 ^ 32) :
    ∃ bytes, serializeTransaction tx = .ok bytes := by
  obtain ⟨raw, hraw⟩ := serializeRawTransaction_returns h (by omega)
  obtain ⟨_, hitems, witnesses, hwritten⟩ := serializeBytesVec_returns hwitnesses (by omega)
  have hrawLen := serializeRawTransaction_size hraw
  have hlen := serializeBytesVec_length hitems hwritten
  simp only [serializeTransaction, hraw, hitems, hwritten, Result.ok_bind]
  refine ⟨_, serializeTable_eq_ok.2 ⟨?_, rfl⟩⟩
  simp only [headerSize, List.flatten_cons, List.flatten_nil, List.append_nil, List.length_append,
    List.length_cons, List.length_nil]
  omega

end CkbDilithium.Sdk
