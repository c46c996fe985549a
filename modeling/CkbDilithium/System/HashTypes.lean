import CkbDilithium.Address.Canonical
import CkbDilithium.Transfer.SameLock
import CkbDilithium.Ckb.Schema

/-!
# One hash type in transactions and addresses

Hash types arrive as unchecked strings, and a lock goes two ways: into a transaction through `serializeScript`, and
into an address through `encodeCkbAddress`. The two encoders of hash types agree on every string that begins with
`data` or is `type`, and on every string without a version after the fourth character; on the others the
serializer returns a byte for a hash type that no address can carry. For locks the same condition decides, next to
the length of the code hash, which only the address codec checks, and the 32-bit sizes of the serializer.
-/

namespace CkbDilithium.Sdk

open Js Molecule

/-! ### Hash types -/

/-- Both encoders throw or both give one byte, and a byte that is given decodes to a hash type with that byte. -/
def HashTypesAgree (hashType : JsString) : Prop :=
  (∀ byte, hashTypeByte hashType = .ok byte ↔ hashTypeToByte hashType = .ok byte) ∧
  ∀ byte, hashTypeByte hashType = .ok byte ∨ hashTypeToByte hashType = .ok byte →
    ∃ decoded, byteToHashType byte = .ok decoded ∧ hashTypeByte decoded = .ok byte ∧ hashTypeToByte decoded = .ok byte

/-- The serializer's encoder accepts the string. -/
def HasByte (hashType : JsString) : Prop := hashType = lit "data" ∨ hashType = lit "type" ∨ HasVersion hashType

theorem hasByte_iff {hashType : JsString} : HasByte hashType ↔ ∃ byte, hashTypeByte hashType = .ok byte := by
  simp only [hashTypeByte_eq_ok, HasByte]
  by_cases h0 : hashType = lit "data"
  · simp [h0]
  · by_cases h1 : hashType = lit "type"
    · simp [h1]
    · simp [h0, h1]

theorem hashTypeToByte_eq_ok {hashType : JsString} {byte : Nat} :
    hashTypeToByte hashType = .ok byte ↔ DataOrType hashType ∧ hashTypeByte hashType = .ok byte := by
  rw [hashTypeToByte_eq]
  by_cases hform : DataOrType hashType
  · simp [hform]
  · simp [hform]

/-- Without a version after the fourth character, only `data` and `type` have a byte. -/
theorem dataOrType_of_hasByte {hashType : JsString} (h : HasByte hashType) (hversion : ¬ HasVersion hashType) :
    DataOrType hashType := by
  rcases h with rfl | rfl | h
  · exact Or.inr (by decide)
  · exact Or.inl rfl
  · exact absurd h hversion

theorem hashTypesAgree_iff (hashType : JsString) :
    HashTypesAgree hashType ↔ DataOrType hashType ∨ ¬ HasVersion hashType := by
  constructor
  · intro hagree
    by_contra hnot
    obtain ⟨hform, hversion⟩ := not_or.1 hnot
    obtain ⟨byte, hbyte⟩ := hasByte_iff.1 (Or.inr (Or.inr (not_not.1 hversion)))
    exact hform (hashTypeToByte_eq_ok.1 ((hagree.1 byte).1 hbyte)).1
  · intro h
    refine ⟨fun byte => ⟨fun hbyte => ?_, hashTypeByte_of_hashTypeToByte⟩, fun byte hbyte => ?_⟩
    · refine hashTypeToByte_eq_ok.2 ⟨?_, hbyte⟩
      rcases h with hform | hversion
      · exact hform
      · exact dataOrType_of_hasByte (hasByte_iff.2 ⟨byte, hbyte⟩) hversion
    · obtain ⟨decoded, hdecoded⟩ := exists_hashTypeByte (hbyte.elim id hashTypeByte_of_hashTypeToByte)
      exact ⟨decoded, byteToHashType_eq_ok.2 hdecoded, hdecoded.hashTypeByte_eq, hdecoded.hashTypeToByte_eq⟩

/-! ### Locks -/

/-- The lock is serialized when it has an address and only then, and the two carry one hash type. -/
def LockFormsAgree (lock : LockScript) (network : Network) : Prop :=
  ((∃ bytes, serializeScript lock = .ok bytes) ↔ ∃ address, encodeCkbAddress lock network = .ok address) ∧
  ∀ bytes address, serializeScript lock = .ok bytes → encodeCkbAddress lock network = .ok address →
    ∃ script decoded, Ckb.readScript bytes = some script ∧ decodeCkbAddress address = .ok decoded ∧
      hashTypeToByte decoded.script.hashType = .ok script.hashType.toNat

/-- When the fields can be read and the hash type has a byte: the code hash has 32 bytes and the hash type begins with
`data` or is `type`, exactly if the serialized script has a 32-bit size. -/
def LockCondition (lock : LockScript) : Prop :=
  ∀ codeHash args, hexToBytes lock.codeHash = .ok codeHash → hexToBytes lock.args = .ok args → HasByte lock.hashType →
    ((codeHash.length = 32 ∧ DataOrType lock.hashType) ↔ 21 + codeHash.length + args.length < 2 ^ 32)

section Locks

variable {lock : LockScript}

/-- The serializer returns when the fields can be read, the hash type has a byte and the size fits. -/
theorem serializeScript_returns_iff : (∃ bytes, serializeScript lock = .ok bytes) ↔
    ∃ codeHash args, hexToBytes lock.codeHash = .ok codeHash ∧ hexToBytes lock.args = .ok args ∧
      HasByte lock.hashType ∧ 21 + codeHash.length + args.length < 2 ^ 32 := by
  have hsize : ∀ (codeHash args : Bytes) (byte : Nat),
      headerSize [codeHash, [UInt8.ofNat byte], encodeFixVec (args.map fun b => [b])] +
        [codeHash, [UInt8.ofNat byte], encodeFixVec (args.map fun b => [b])].flatten.length =
      21 + codeHash.length + args.length := by
    intro codeHash args byte
    simp only [headerSize, encodeFixVec, List.length_cons, List.length_nil, List.flatten_cons, List.flatten_nil,
      List.length_append, leBytes_length, List.append_nil, ← List.flatMap_def, List.flatMap_singleton']
    omega
  constructor
  · intro h
    obtain ⟨bytes, h⟩ := h
    obtain ⟨codeHash, byte, args, hcode, hbyte, hargs, -, hfits, -⟩ := serializeScript_eq_ok.1 h
    rw [hsize] at hfits
    exact ⟨codeHash, args, hcode, hargs, hasByte_iff.2 ⟨byte, hbyte⟩, hfits⟩
  · intro h
    obtain ⟨codeHash, args, hcode, hargs, hbyte, hfits⟩ := h
    obtain ⟨byte, hbyte⟩ := hasByte_iff.1 hbyte
    refine ⟨_, serializeScript_eq_ok.2 ⟨codeHash, byte, args, hcode, hbyte, hargs, by omega, ?_, rfl⟩⟩
    rwa [hsize]

theorem encodeCkbAddress_returns_iff (network : Network) : (∃ address, encodeCkbAddress lock network = .ok address) ↔
    ∃ codeHash args, hexToBytes lock.codeHash = .ok codeHash ∧ hexToBytes lock.args = .ok args ∧
      HasByte lock.hashType ∧ codeHash.length = 32 ∧ DataOrType lock.hashType := by
  constructor
  · intro h
    obtain ⟨address, h⟩ := h
    obtain ⟨codeHash, hcode, hlen, args, hargs, byte, hbyte, -⟩ := encodeCkbAddress_eq_ok.1 h
    obtain ⟨hform, hbyte⟩ := hashTypeToByte_eq_ok.1 hbyte
    exact ⟨codeHash, args, hcode, hargs, hasByte_iff.2 ⟨byte, hbyte⟩, hlen, hform⟩
  · intro h
    obtain ⟨codeHash, args, hcode, hargs, hbyte, hlen, hform⟩ := h
    obtain ⟨byte, hbyte⟩ := hasByte_iff.1 hbyte
    exact encodeCkbAddress_returns network hcode hlen hargs (hashTypeToByte_eq_ok.2 ⟨hform, hbyte⟩)

/-- The bytes and the address of one lock carry the byte of its hash type. -/
theorem serializeScript_encodeCkbAddress_hashType {network : Network} {bytes : Bytes} {address : JsString}
    (hser : serializeScript lock = .ok bytes) (haddr : encodeCkbAddress lock network = .ok address) :
    ∃ script decoded, Ckb.readScript bytes = some script ∧ decodeCkbAddress address = .ok decoded ∧
      hashTypeToByte decoded.script.hashType = .ok script.hashType.toNat := by
  obtain ⟨codeHash, args, byte, hashType, hcode, hlen, hargs, hbyte, hdecoded, hdecode⟩ :=
    decodeCkbAddress_of_encode haddr
  obtain ⟨codeHash', byte', args', hcode', hbyte', hargs', hcount, hfits, rfl⟩ := serializeScript_eq_ok.1 hser
  obtain rfl := Result.ok_unique hcode hcode'
  obtain rfl := Result.ok_unique hargs hargs'
  obtain rfl := Result.ok_unique (hashTypeByte_of_hashTypeToByte hbyte) hbyte'
  refine ⟨⟨codeHash, UInt8.ofNat byte, args⟩, _, ?_, hdecode, ?_⟩
  · exact Ckb.readScript_encode hlen hcount hfits
  · have hlt := hdecoded.byte_lt
    rw [hdecoded.hashTypeToByte_eq, UInt8.toNat_ofNat', Nat.mod_eq_of_lt (by omega)]

theorem lockFormsAgree_iff (lock : LockScript) (network : Network) :
    LockFormsAgree lock network ↔ LockCondition lock := by
  rw [LockFormsAgree, serializeScript_returns_iff, encodeCkbAddress_returns_iff]
  constructor
  · intro hagree codeHash args hcode hargs hbyte
    constructor
    · intro hform
      obtain ⟨codeHash', args', hcode', hargs', -, hfits⟩ := hagree.1.2 ⟨codeHash, args, hcode, hargs, hbyte, hform⟩
      rwa [Result.ok_unique hcode hcode', Result.ok_unique hargs hargs']
    · intro hfits
      obtain ⟨codeHash', args', hcode', -, -, hform⟩ := hagree.1.1 ⟨codeHash, args, hcode, hargs, hbyte, hfits⟩
      rwa [Result.ok_unique hcode hcode']
  · intro hcondition
    refine ⟨⟨?_, ?_⟩, fun bytes address => serializeScript_encodeCkbAddress_hashType⟩
    · intro h
      obtain ⟨codeHash, args, hcode, hargs, hbyte, hfits⟩ := h
      exact ⟨codeHash, args, hcode, hargs, hbyte, (hcondition codeHash args hcode hargs hbyte).2 hfits⟩
    · intro h
      obtain ⟨codeHash, args, hcode, hargs, hbyte, hform⟩ := h
      exact ⟨codeHash, args, hcode, hargs, hbyte, (hcondition codeHash args hcode hargs hbyte).1 hform⟩

end Locks

/-- **When the two encoders agree.** On a hash type: it begins with `data`, is `type`, or has no version after its
fourth character. On a lock, in every network: one that can be read and whose hash type has a byte also has a code
hash of 32 bytes and such a hash type, and fits the 32-bit sizes. -/
theorem hashTypeByte_hashTypeToByte_agree (hashType : JsString) (lock : LockScript) (network : Network) :
    (HashTypesAgree hashType ↔ DataOrType hashType ∨ ¬ HasVersion hashType) ∧
    (LockFormsAgree lock network ↔ LockCondition lock) :=
  ⟨hashTypesAgree_iff hashType, lockFormsAgree_iff lock network⟩

/-- A lock whose hash type is a version after any four characters. -/
def anyLettersLock : LockScript where
  codeHash := bytesToHex (List.replicate 32 0)
  hashType := lit "xxxx5"
  args := bytesToHex []

theorem hashTypeByte_any_letters :
    hashTypeByte (lit "xxxx5") = .ok 10 ∧ hashTypeToByte (lit "xxxx5") = raise (lit "unsupported hash type: xxxx5") ∧
    ¬ HashTypesAgree (lit "xxxx5") ∧ ¬ LockFormsAgree anyLettersLock .testnet := by
  have hbyte : hashTypeByte (lit "xxxx5") = .ok 10 := by decide +kernel
  have hform : ¬ DataOrType (lit "xxxx5") := by decide
  have hthrows : hashTypeToByte (lit "xxxx5") = raise (lit "unsupported hash type: xxxx5") := by
    rw [hashTypeToByte_eq, if_neg hform]
    rfl
  refine ⟨hbyte, hthrows, ?_, ?_⟩
  · intro hagree
    exact hform (hashTypeToByte_eq_ok.1 ((hagree.1 10).1 hbyte)).1
  · intro hagree
    have hserializes : ∃ bytes, serializeScript anyLettersLock = .ok bytes :=
      serializeScript_returns_iff.2 ⟨_, _, hexToBytes_bytesToHex _, hexToBytes_bytesToHex _,
        hasByte_iff.2 ⟨10, hbyte⟩, by simp⟩
    obtain ⟨-, -, -, -, -, -, hdata⟩ := (encodeCkbAddress_returns_iff _).1 (hagree.1.1 hserializes)
    exact hform hdata

end CkbDilithium.Sdk
