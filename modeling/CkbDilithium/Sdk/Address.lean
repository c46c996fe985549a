import CkbDilithium.Sdk.HashType

/-!
# Full-format addresses

`sdk/src/address.ts`: the bech32m encoding of `0x00 ++ codeHash ++ hashType ++ args` with the prefix
of the network. Bitwise operators work on 32-bit signed words; the accumulator of `convertBits` is
never masked and wraps around.
-/

namespace CkbDilithium.Sdk

open Js

def charset : JsString := lit "qpzry9x8gf2tvdw0s3jn54khce6mua7l"

/-- `CHARSET_MAP.get(char)`. -/
def charsetIndex (c : UInt16) : Option JsInt32 := (charset.idxOf? c).map (BitVec.ofNat 32)

/-- One character of the data part. -/
def charsetValue (char : UInt16) : Js JsInt32 :=
  match charsetIndex char with
  | some value => pure value
  | none => raise (lit "invalid bech32m character: " ++ [char])

def bech32mConst : JsInt32 := 0x2bc830a3#32

def fullAddressType : UInt8 := 0x00

def codeHashBytes : Nat := 32

/-! ### Prefixes -/

def hrpForNetwork : Network → JsString
  | .mainnet => lit "ckb"
  | .testnet | .devnet => lit "ckt"

def networkForHrp (hrp : JsString) : Js Network :=
  if hrp = lit "ckb" then pure .mainnet
  else if hrp = lit "ckt" then pure .testnet
  else raise (lit "unsupported CKB address prefix: " ++ hrp)

/-! ### The checksum -/

def generators : List JsInt32 := [0x3b6a57b2#32, 0x26508e6d#32, 0x1ea119fa#32, 0x3d4233dd#32, 0x2a1462b3#32]

/-- One round of the loop of `polymod`. -/
def polymodStep (checksum value : JsInt32) : JsInt32 :=
  let top := sar checksum 25
  let checksum := shl (checksum &&& 0x1ffffff#32) 5 ^^^ value
  generators.zipIdx.foldl
    (fun checksum g => if sar top g.2 &&& 1#32 ≠ 0#32 then checksum ^^^ g.1 else checksum) checksum

/-- The final `>>> 0` reads the 32 bits as an unsigned number. -/
def polymod (values : List JsInt32) : Nat := (values.foldl polymodStep 1#32).toNat

/-- `char.charCodeAt(0)` as an operand. -/
def charCode (c : UInt16) : JsInt32 := BitVec.ofNat 32 c.toNat

def hrpExpand (hrp : JsString) : List JsInt32 :=
  hrp.map (fun c => sar (charCode c) 5) ++ [0#32] ++ hrp.map (fun c => charCode c &&& 31#32)

def createChecksum (hrp : JsString) (data : List JsInt32) : List JsInt32 :=
  let values := hrpExpand hrp ++ data ++ [0#32, 0#32, 0#32, 0#32, 0#32, 0#32]
  let mod := BitVec.ofNat 32 (polymod values) ^^^ bech32mConst
  (List.range 6).map fun index => sar mod (5 * (5 - index)) &&& 31#32

def verifyChecksum (hrp : JsString) (data : List JsInt32) : Bool :=
  polymod (hrpExpand hrp ++ data) == bech32mConst.toNat

/-! ### Bit regrouping -/

/-- The inner `while (bits >= toBits)`; every round takes `toBits` of the `bits`. -/
def emitGroups (toBits : Nat) (accumulator maxValue : JsInt32) :
    (fuel bits : Nat) → (result : List JsInt32) → Nat × List JsInt32
  | 0, bits, result => (bits, result)
  | fuel + 1, bits, result =>
    if bits ≥ toBits then
      let bits := bits - toBits
      emitGroups toBits accumulator maxValue fuel bits (result ++ [sar accumulator bits &&& maxValue])
    else (bits, result)

/-- The loop over the values: the accumulator, the number of bits left in it and the result. -/
def convertLoop (fromBits toBits : Nat) (maxValue : JsInt32) :
    (data : List JsInt32) → (accumulator : JsInt32) → (bits : Nat) → (result : List JsInt32) →
      Js (JsInt32 × Nat × List JsInt32)
  | [], accumulator, bits, result => pure (accumulator, bits, result)
  | value :: data, accumulator, bits, result =>
    if value.toInt < 0 ∨ sar value fromBits ≠ 0#32 then raise (lit "invalid value for bit conversion")
    else
      let accumulator := shl accumulator fromBits ||| value
      let bits := bits + fromBits
      let (bits, result) := emitGroups toBits accumulator maxValue bits bits result
      convertLoop fromBits toBits maxValue data accumulator bits result

def convertBits (data : List JsInt32) (fromBits toBits : Nat) (pad : Bool) : Js (List JsInt32) := do
  let maxValue := shl 1#32 toBits - 1#32
  let (accumulator, bits, result) ← convertLoop fromBits toBits maxValue data 0#32 0 []
  if pad then
    if bits > 0 then pure (result ++ [shl accumulator (toBits - bits) &&& maxValue]) else pure result
  else if bits ≥ fromBits ∨ shl accumulator (toBits - bits) &&& maxValue ≠ 0#32 then
    raise (lit "invalid padding in bit conversion")
  else pure result

/-! ### Bech32m and addresses -/

/-- The elements of a byte array, as numbers. -/
def byteValues (payload : Bytes) : List JsInt32 := payload.map fun b => BitVec.ofNat 32 b.toNat

/-- `Uint8Array.from(values)`. -/
def bytesOfValues (values : List JsInt32) : Bytes := values.map fun v => UInt8.ofNat v.toNat

/-- `values.map((value) => CHARSET[value]).join("")`. -/
def charsOfValues (values : List JsInt32) : JsString := values.flatMap fun v => (charset[v.toNat]?).toList

def encodeBech32m (hrp : JsString) (payload : Bytes) : Js JsString := do
  let words ← convertBits (byteValues payload) 8 5 true
  let checksum := createChecksum hrp words
  pure (hrp ++ lit "1" ++ charsOfValues (words ++ checksum))

def decodeBech32m (address : JsString) : Js (JsString × Bytes) :=
  let normalized := toLowerCase address
  if normalized ≠ address ∧ toUpperCase normalized ≠ address then
    raise (lit "mixed-case bech32m address is not allowed")
  else
    let separator := lastIndexOf normalized (unit '1')
    if separator ≤ 0 ∨ separator + 7 > normalized.length then raise (lit "invalid bech32m address")
    else do
      let hrp := normalized.take separator.toNat
      let dataPart := normalized.drop (separator.toNat + 1)
      let data ← dataPart.mapM charsetValue
      if ¬ verifyChecksum hrp data then raise (lit "invalid bech32m checksum")
      else
        let payloadWords := data.take (data.length - 6)
        pure (hrp, bytesOfValues (← convertBits payloadWords 5 8 false))

def encodeCkbAddress (script : LockScript) (network : Network) : Js JsString := do
  let codeHash ← hexToBytes script.codeHash
  if codeHash.length ≠ codeHashBytes then raise (lit "codeHash must be 32 bytes")
  else
    let args ← hexToBytes script.args
    let hashType ← hashTypeToByte script.hashType
    let payload := concatBytes [[fullAddressType], codeHash, [UInt8.ofNat hashType], args]
    encodeBech32m (hrpForNetwork network) payload

def decodeCkbAddress (address : JsString) : Js DecodedCkbAddress := do
  let (hrp, payload) ← decodeBech32m address
  if payload.length < 1 + codeHashBytes + 1 then raise (lit "CKB address payload is too short")
  else if payload[0]? ≠ some fullAddressType then
    raise (lit "only full-format CKB addresses are supported")
  else
    let codeHash := slice payload 1 (1 + codeHashBytes)
    let hashType := (payload[1 + codeHashBytes]?).getD 0
    let args := payload.drop (1 + codeHashBytes + 1)
    let network ← networkForHrp hrp
    let hashType ← byteToHashType hashType.toNat
    pure { network, script := { codeHash := bytesToHex codeHash, hashType, args := bytesToHex args } }

end CkbDilithium.Sdk
