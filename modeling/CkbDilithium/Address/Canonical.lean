import CkbDilithium.Address.Bech32m

/-!
# Addresses are canonical

`encodeCkbAddress` and `decodeCkbAddress` lay the script out as one payload (`addressPayload`) and
read it back. Every canonical script has an address that decodes to it (`decode_encodeCkbAddress`),
and every address that is accepted is, in lower case, the one the encoder produces for what it
decodes to (`encode_decodeCkbAddress`).
-/

namespace CkbDilithium.Sdk

open Js

/-! ### The payload -/

/-- The payload of a full-format address. -/
def addressPayload (codeHash : Bytes) (hashType : UInt8) (args : Bytes) : Bytes :=
  fullAddressType :: (codeHash ++ hashType :: args)

theorem encodeCkbAddress_eq_ok {script : LockScript} {network : Network} {s : JsString} :
    encodeCkbAddress script network = .ok s ↔
      ∃ codeHash, hexToBytes script.codeHash = .ok codeHash ∧ codeHash.length = codeHashBytes ∧
        ∃ args, hexToBytes script.args = .ok args ∧
          ∃ hashType, hashTypeToByte script.hashType = .ok hashType ∧
            encodeBech32m (hrpForNetwork network) (addressPayload codeHash (UInt8.ofNat hashType) args) =
              .ok s := by
  have hpayload : ∀ (codeHash : Bytes) (hashType : UInt8) (args : Bytes),
      concatBytes [[fullAddressType], codeHash, [hashType], args] = addressPayload codeHash hashType args := by
    intro codeHash hashType args
    simp [concatBytes, addressPayload]
  simp only [encodeCkbAddress, Result.bind_eq_ok, ite_raise_eq_ok, not_not, hpayload]

theorem networkForHrp_eq_ok {hrp : JsString} {network : Network} :
    networkForHrp hrp = .ok network ↔ hrpForNetwork network = hrp ∧ network ≠ .devnet := by
  have hne : lit "ckt" ≠ lit "ckb" := by decide
  unfold networkForHrp
  split_ifs with hckb hckt
  · cases network <;> simp [hrpForNetwork, hckb, hne]
  · cases network <;> simp [hrpForNetwork, hckt, hne.symm]
  · cases network <;> simp [hrpForNetwork, Ne.symm hckb, Ne.symm hckt]

theorem addressPayload_of_length {payload : Bytes} (hlen : 1 + codeHashBytes + 1 ≤ payload.length)
    (hhead : payload[0]? = some fullAddressType) :
    (slice payload 1 (1 + codeHashBytes)).length = codeHashBytes ∧
      payload = addressPayload (slice payload 1 (1 + codeHashBytes))
        ((payload[1 + codeHashBytes]?).getD 0) (payload.drop (1 + codeHashBytes + 1)) := by
  have hindex : 1 + codeHashBytes < payload.length := hlen
  refine ⟨by rw [slice_length] <;> omega, ?_⟩
  obtain ⟨rest, rfl⟩ : ∃ rest, payload = fullAddressType :: rest := by
    cases payload with
    | nil => simp at hhead
    | cons b rest => exact ⟨rest, by simpa using hhead⟩
  have hrest : codeHashBytes < rest.length := by simpa [Nat.add_comm] using hindex
  rw [addressPayload, Nat.add_comm 1 codeHashBytes, List.getElem?_cons_succ, List.getElem?_eq_getElem hrest,
    Option.getD_some, List.drop_succ_cons]
  have hslice : slice (fullAddressType :: rest) 1 (codeHashBytes + 1) = rest.take codeHashBytes := by
    simp [slice]
  rw [hslice, ← List.drop_eq_getElem_cons hrest, List.take_append_drop]

/-- A decoded address is the payload of a string with the prefix of its network. -/
theorem decodeCkbAddress_eq_ok {address : JsString} {decoded : DecodedCkbAddress} :
    decodeCkbAddress address = .ok decoded ↔
      decoded.network ≠ .devnet ∧ ∃ codeHash hashType args,
        decodeBech32m address = .ok (hrpForNetwork decoded.network, addressPayload codeHash hashType args) ∧
        codeHash.length = codeHashBytes ∧ HashTypeByte decoded.script.hashType hashType.toNat ∧
        decoded.script.codeHash = bytesToHex codeHash ∧ decoded.script.args = bytesToHex args := by
  obtain ⟨network, script⟩ := decoded
  obtain ⟨codeHash, hashType, args⟩ := script
  simp only [decodeCkbAddress, Result.bind_eq_ok, ite_raise_eq_ok, not_not, Prod.exists, not_lt,
    Result.pure_eq_ok, networkForHrp_eq_ok, byteToHashType_eq_ok, DecodedCkbAddress.mk.injEq,
    LockScript.mk.injEq]
  constructor
  · intro h
    rcases h with ⟨hrp, payload, hdecode, hlen, hhead, _, ⟨rfl, hdev⟩, _, hbyte, rfl, rfl, rfl, rfl⟩
    obtain ⟨hcode, hpayload⟩ := addressPayload_of_length hlen hhead
    exact ⟨hdev, _, _, _, hpayload ▸ hdecode, hcode, hbyte, rfl, rfl⟩
  · intro h
    rcases h with ⟨hdev, codeBytes, byte, argBytes, hdecode, hcode, hbyte, rfl, rfl⟩
    have hlen : (addressPayload codeBytes byte argBytes).length = 1 + codeHashBytes + 1 + argBytes.length := by
      simp only [addressPayload, List.length_cons, List.length_append, hcode]
      omega
    have hget : (addressPayload codeBytes byte argBytes)[1 + codeHashBytes]? = some byte := by
      rw [addressPayload, Nat.add_comm, List.getElem?_cons_succ, ← hcode]
      simp
    have hslice : slice (addressPayload codeBytes byte argBytes) 1 (1 + codeHashBytes) = codeBytes := by
      rw [slice, addressPayload, Nat.add_sub_cancel_left, List.drop_succ_cons, List.drop_zero, ← hcode,
        List.take_left]
    have hdrop : (addressPayload codeBytes byte argBytes).drop (1 + codeHashBytes + 1) = argBytes := by
      rw [addressPayload, Nat.add_right_comm, Nat.add_comm, List.drop_succ_cons, ← hcode]
      simp
    refine ⟨_, _, hdecode, by omega, rfl, network, ⟨rfl, hdev⟩, hashType, ?_, rfl, ?_, rfl, ?_⟩
    · rwa [hget, Option.getD_some]
    · rw [hslice]
    · rw [hdrop]

/-! ### Decoding undoes encoding -/

/-- Only lower-case hexadecimal digits. -/
def LowerHex (s : JsString) : Prop := ∀ c ∈ s, c ∈ lit "0123456789abcdef"

instance (s : JsString) : Decidable (LowerHex s) :=
  List.decidableBAll (· ∈ lit "0123456789abcdef") s

theorem LowerHex.hexString {s : JsString} (h : LowerHex s) : HexString s := by
  have hdigit : HexString (lit "0123456789abcdef") := by decide
  exact fun c hc => hdigit c (h c hc)

theorem LowerHex.toLowerCase_eq {s : JsString} (h : LowerHex s) : toLowerCase s = s := by
  have hdigit : (lit "0123456789abcdef").all (fun c => lowerUnit c == c) = true := by decide
  refine (List.map_congr_left fun c hc => ?_).trans (List.map_id s)
  exact beq_iff_eq.1 (List.all_eq_true.1 hdigit c (h c hc))

/-- A script as addresses carry them: a lower-case code hash of 32 bytes, a canonical hash type and
lower-case args of any number of bytes. -/
structure CanonicalScript (script : LockScript) : Prop where
  codeHash : ∃ hex, script.codeHash = lit "0x" ++ hex ∧ LowerHex hex ∧ hex.length = 64
  hashType : CanonicalHashType script.hashType
  args : ∃ hex, script.args = lit "0x" ++ hex ∧ LowerHex hex ∧ hex.length % 2 = 0

/-- Lower-case digits are the printed form of the bytes they denote. -/
theorem LowerHex.exists_bytes {hex : JsString} (h : LowerHex hex) (heven : hex.length % 2 = 0) :
    ∃ bytes : Bytes, bytes.length = hex.length / 2 ∧ lit "0x" ++ hex = bytesToHex bytes :=
  ⟨bufferFromHex hex, bufferFromHex_length h.hexString heven, by
    rw [bytesToHex, hexDigits_bufferFromHex h.hexString heven, h.toLowerCase_eq]⟩

/-- The network an address of a network decodes to. -/
def decodedNetwork (network : Network) : Network := if network = .mainnet then .mainnet else .testnet

theorem hrpForNetwork_decodedNetwork (network : Network) :
    hrpForNetwork (decodedNetwork network) = hrpForNetwork network := by cases network <;> rfl

theorem decodedNetwork_ne_devnet (network : Network) : decodedNetwork network ≠ .devnet := by
  cases network <;> decide

/-- A script has an address when its fields can be read and the code hash has its length. -/
theorem encodeCkbAddress_returns {script : LockScript} {codeHash args : Bytes} {byte : Nat} (network : Network)
    (hcode : hexToBytes script.codeHash = .ok codeHash) (hlen : codeHash.length = codeHashBytes)
    (hargs : hexToBytes script.args = .ok args) (hbyte : hashTypeToByte script.hashType = .ok byte) :
    ∃ address, encodeCkbAddress script network = .ok address := by
  obtain ⟨address, hencode, -⟩ :=
    exists_encodeBech32m (hrpForNetwork network) (addressPayload codeHash (UInt8.ofNat byte) args)
  exact ⟨address, encodeCkbAddress_eq_ok.2 ⟨codeHash, hcode, hlen, args, hargs, byte, hbyte, hencode⟩⟩

/-- An address decodes to the values of the fields, in canonical form. -/
theorem decodeCkbAddress_of_encode {script : LockScript} {network : Network} {address : JsString}
    (h : encodeCkbAddress script network = .ok address) :
    ∃ codeHash args byte hashType, hexToBytes script.codeHash = .ok codeHash ∧ codeHash.length = codeHashBytes ∧
      hexToBytes script.args = .ok args ∧ hashTypeToByte script.hashType = .ok byte ∧ HashTypeByte hashType byte ∧
      decodeCkbAddress address = .ok
        { network := decodedNetwork network,
          script := { codeHash := bytesToHex codeHash, hashType, args := bytesToHex args } } := by
  obtain ⟨codeHash, hcode, hlen, args, hargs, byte, hbyte, hencode⟩ := encodeCkbAddress_eq_ok.1 h
  obtain ⟨hashType, hdecoded⟩ := exists_hashTypeByte (hashTypeByte_of_hashTypeToByte hbyte)
  have hbyteVal : (UInt8.ofNat byte).toNat = byte := by
    have := hdecoded.byte_lt
    rw [UInt8.toNat_ofNat']
    omega
  obtain ⟨address', hencode', hlower⟩ :=
    exists_encodeBech32m (hrpForNetwork network) (addressPayload codeHash (UInt8.ofNat byte) args)
  obtain rfl := Result.ok_unique hencode hencode'
  have hhrp : toLowerCase (hrpForNetwork network) = hrpForNetwork network ∧ hrpForNetwork network ≠ [] := by
    cases network <;> decide
  refine ⟨codeHash, args, byte, hashType, hcode, hlen, hargs, hbyte, hdecoded, ?_⟩
  rw [decodeCkbAddress_eq_ok]
  refine ⟨decodedNetwork_ne_devnet network, codeHash, UInt8.ofNat byte, args, ?_, hlen, ?_, rfl, rfl⟩
  · rw [decodeBech32m_iff_encodeBech32m, hrpForNetwork_decodedNetwork, hlower hhrp.1]
    exact ⟨Or.inl rfl, hhrp.2, hencode⟩
  · rwa [hbyteVal]

/-- **Decoding undoes encoding**, for every canonical script. -/
theorem decode_encodeCkbAddress (network : Network) (script : LockScript) (hscript : CanonicalScript script) :
    ∃ address, encodeCkbAddress script network = .ok address ∧
      decodeCkbAddress address = .ok { network := decodedNetwork network, script } := by
  obtain ⟨codeHex, hcodeEq, hcodeLower, hcodeLen⟩ := hscript.codeHash
  obtain ⟨argsHex, hargsEq, hargsLower, hargsEven⟩ := hscript.args
  obtain ⟨byte, hbyte⟩ := hscript.hashType
  obtain ⟨codeHash, hcodeHash, hcode⟩ := hcodeLower.exists_bytes (by omega)
  obtain ⟨args, -, hargs⟩ := hargsLower.exists_bytes hargsEven
  have hcodeLength : codeHash.length = codeHashBytes := by rw [hcodeHash, hcodeLen]; rfl
  have hcodeRead : hexToBytes script.codeHash = .ok codeHash := by rw [hcodeEq, hcode, hexToBytes_bytesToHex]
  have hargsRead : hexToBytes script.args = .ok args := by rw [hargsEq, hargs, hexToBytes_bytesToHex]
  obtain ⟨address, hencode⟩ := encodeCkbAddress_returns network hcodeRead hcodeLength hargsRead hbyte.hashTypeToByte_eq
  refine ⟨address, hencode, ?_⟩
  -- The fields are what they decode to.
  obtain ⟨codeHash', args', byte', hashType, hcode', -, hargs', hbyte', hdecoded, hdecode⟩ :=
    decodeCkbAddress_of_encode hencode
  obtain rfl := Result.ok_unique hcodeRead hcode'
  obtain rfl := Result.ok_unique hargsRead hargs'
  obtain rfl := Result.ok_unique hbyte.hashTypeToByte_eq hbyte'
  obtain rfl := hbyte.unique hdecoded
  rwa [← hcode, ← hargs, ← hcodeEq, ← hargsEq] at hdecode

/-- A script with a versioned hash type and 20 bytes of args. -/
def sampleScript : LockScript where
  codeHash := lit "0x9bd7e06f3ecf4be0f2fcd2188b23f1b9fcc88e5d4b65a8637b17723bbda3cce8"
  hashType := lit "data2"
  args := lit "0xb39bbc0b3673c7d36450bc14cfcdad2d559c6c64"

theorem decode_encodeCkbAddress_sampleScript :
    ∃ address, encodeCkbAddress sampleScript .devnet = .ok address ∧
      decodeCkbAddress address = .ok { network := .testnet, script := sampleScript } :=
  decode_encodeCkbAddress .devnet sampleScript
    ⟨⟨sampleScript.codeHash.drop 2, by decide, by decide, by decide⟩,
      ⟨4, HashTypeByte.version (n := 2) (by decide) (by decide)⟩,
      ⟨sampleScript.args.drop 2, by decide, by decide, by decide⟩⟩

/-! ### Encoding undoes decoding -/

/-- The letters of the string are all lower case or all upper case. -/
def SingleCase (s : JsString) : Prop := (∀ c ∈ s, isUpper c = false) ∨ ∀ c ∈ s, isLower c = false

theorem singleCase_of_case_eq {s : JsString}
    (h : toLowerCase s = s ∨ toUpperCase (toLowerCase s) = s) : SingleCase s := by
  refine h.imp (fun h c hc => ?_) (fun h c hc => ?_)
  · rw [← h, toLowerCase, List.mem_map] at hc
    obtain ⟨d, -, rfl⟩ := hc
    rw [← Bool.not_eq_true, isUpper_iff, lowerUnit_toNat]
    split_ifs <;> omega
  · rw [← h, toUpperCase, List.mem_map] at hc
    obtain ⟨d, -, rfl⟩ := hc
    rw [← Bool.not_eq_true, isLower_iff, upperUnit_toNat]
    split_ifs <;> omega

theorem encode_of_decodeCkbAddress {a : JsString} {d : DecodedCkbAddress} (h : decodeCkbAddress a = .ok d) :
    encodeCkbAddress d.script d.network = .ok (toLowerCase a) := by
  obtain ⟨-, codeHash, byte, args, hdecode, hcode, hbyte, hcodeHex, hargsHex⟩ := decodeCkbAddress_eq_ok.1 h
  rw [encodeCkbAddress_eq_ok, hcodeHex, hargsHex]
  refine ⟨codeHash, hexToBytes_bytesToHex codeHash, hcode, args, hexToBytes_bytesToHex args, byte.toNat,
    hbyte.hashTypeToByte_eq, ?_⟩
  rw [UInt8.ofNat_toNat]
  exact (decodeBech32m_iff_encodeBech32m.1 hdecode).2.2

/-- **Only canonical addresses are accepted**: an accepted string does not mix cases and is the
encoding of what it decodes to, so two accepted strings for one script differ in case alone. -/
theorem encode_decodeCkbAddress {a : JsString} {d : DecodedCkbAddress} (_hascii : Ascii a)
    (hdecode : decodeCkbAddress a = .ok d) :
    SingleCase a ∧ encodeCkbAddress d.script d.network = .ok (toLowerCase a) ∧
      ∀ b, Ascii b → decodeCkbAddress b = .ok d → toLowerCase b = toLowerCase a := by
  refine ⟨?_, encode_of_decodeCkbAddress hdecode, fun b _ hb => ?_⟩
  · obtain ⟨-, _, _, _, hbech, -⟩ := decodeCkbAddress_eq_ok.1 hdecode
    exact singleCase_of_case_eq (decodeBech32m_iff_encodeBech32m.1 hbech).1
  · have hsame := encode_of_decodeCkbAddress hb
    rw [encode_of_decodeCkbAddress hdecode] at hsame
    exact (Except.ok.inj hsame).symm

/-- The address of the sample script on the test network, in upper case. -/
def sampleAddress : JsString :=
  lit "CKT1QZDA0CR08M85HC8JLNFP3ZER7XULEJYWT49KT2RR0VTHYWAA50XWSP9NNW7QKDNNCLFKG59UZN8UMTFD2KWXCEQV2DW69"

theorem decodeCkbAddress_sampleAddress :
    decodeCkbAddress sampleAddress = .ok ⟨.testnet, sampleScript⟩ := by decide +kernel

theorem encode_decodeCkbAddress_sampleAddress :
    Ascii sampleAddress ∧ SingleCase sampleAddress ∧
      encodeCkbAddress sampleScript .testnet = .ok (toLowerCase sampleAddress) ∧
      ∀ b, Ascii b → decodeCkbAddress b = .ok ⟨.testnet, sampleScript⟩ →
        toLowerCase b = toLowerCase sampleAddress :=
  have hascii : Ascii sampleAddress := by decide
  ⟨hascii, encode_decodeCkbAddress hascii decodeCkbAddress_sampleAddress⟩

end CkbDilithium.Sdk
