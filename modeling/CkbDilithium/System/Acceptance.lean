import CkbDilithium.Contract.Verdict
import CkbDilithium.Transfer.Signed

/-!
# Signed transfers are accepted

The lock script run on a transaction of the wallet. Its script group consists of the inputs whose
cell has the lock of the sender; the script reads the witness of the first of them and the hash of
the serialized transaction. Every input of a transfer belongs to the group, so the witness is the
first one, which holds the lock field of the wallet (`readWitnessArgs_lockWitnessArgs`); its key
hashes to the args and its signature is one of the hash (`signedTransfer_accepted`).
-/

namespace CkbDilithium.System

open Js Sdk Contract Molecule

/-! ### Running the lock on a transaction -/

/-- The selected cell an input consumes. -/
def inputCell (cells : List LiveCell) (input : TransactionInput) : Option LiveCell :=
  cells.find? fun cell => cell.outPoint = input.previousOutput

/-- The index of the first input of the script group of a lock. -/
def groupInputIndex (r : SignedTransferTransaction) (lock : LockScript) : Option Nat :=
  r.transaction.inputs.findIdx? fun input =>
    (inputCell r.selectedCells input).any fun cell => cell.output.lock = lock

/-- What the host loads for the script group of a lock: the script of the cells, the hash of the
serialized transaction and the `WitnessArgs` of the first input of the group. -/
def lockGroupHost {PublicKey : Type} (crypto : Crypto PublicKey) (r : SignedTransferTransaction)
    (lock : LockScript) : Host where
  loadScript := some lock.value
  loadTxHash := (serializeRawTransaction r.transaction.toRawTransaction).toOption.map crypto.blake2b256
  loadWitnessArgs := do
    let witness ← r.transaction.witnesses[← groupInputIndex r lock]?
    Ckb.readWitnessArgs (hexValue witness)

/-! ### Assumptions on the cryptography -/

section

variable {PublicKey : Type} (crypto : Crypto PublicKey) (wasm : WasmExports)

/-- The hashes of the WebAssembly module are the personalised blake2b-256 of the contract. -/
structure SameHash : Prop where
  hashPubkey : ∀ data output, wasm.hashPubkey data = .ok output → output = crypto.blake2b256 data
  ckbHash : ∀ data output, wasm.ckbHash data = .ok output → output = crypto.blake2b256 data

/-- The keys belong together: the public key deserialises, and what the secret key signs verifies
with the empty context. -/
def MatchingKeys (publicKey secretKey : Bytes) : Prop :=
  ∃ key, crypto.tryFromBytes publicKey = some key ∧
    ∀ message seed signature, wasm.signMessageWithSeed secretKey message seed = .ok signature →
      crypto.verify key message signature [] = true

end

/-! ### The witness -/

/-- The reader of the schema finds the lock field that the wallet wrote. -/
theorem readWitnessArgs_lockWitnessArgs (lock : Bytes) (h : 20 + lock.length < 2 ^ 32) :
    Ckb.readWitnessArgs (lockWitnessArgs lock) = some ⟨some lock, none, none⟩ := by
  have hsize := lockWitnessArgs_length lock
  rw [lockWitnessArgs, encodeDynVec_length] at hsize
  have htable := readTable_encode (lt_of_eq_of_lt hsize h)
  have hbytes : readBytes (encodeFixVec (lock.map fun byte => [byte])) = some lock :=
    readBytes_encode (by omega)
  have hne : encodeFixVec (lock.map fun byte => [byte]) ≠ [] := by
    intro hnil
    have hlen := encodeBytes_length lock
    rw [hnil, List.length_nil] at hlen
    omega
  simp only [List.length_cons, List.length_nil, Nat.zero_add, Nat.reduceAdd] at htable
  simp [Ckb.readWitnessArgs, lockWitnessArgs, htable, readOption_of_ne_nil hne hbytes, readOption_nil]

/-- Every input belongs to the group, so the group starts with the first input. -/
theorem groupInputIndex_eq_zero {r : SignedTransferTransaction} {lock : LockScript}
    (hinputs : r.transaction.inputs = r.selectedCells.map fun cell => ⟨cell.outPoint, lit "0x0"⟩)
    (hlock : ∀ cell ∈ r.selectedCells, cell.output.lock = lock) (hne : r.selectedCells ≠ []) :
    groupInputIndex r lock = some 0 := by
  obtain ⟨cell, cells, hcells⟩ := List.exists_cons_of_ne_nil hne
  have hcell : inputCell r.selectedCells ⟨cell.outPoint, lit "0x0"⟩ = some cell := by
    rw [inputCell, hcells, List.find?_cons_of_pos (by simp)]
  rw [groupInputIndex, hinputs, hcells, List.map_cons, List.findIdx?_cons, ← hcells, hcell]
  simp [hlock cell (by simp [hcells])]

/-! ### Acceptance -/

variable {PublicKey : Type} {crypto : Crypto PublicKey} {wasm : WasmExports}

/-- **Every transfer the wallet signs is accepted by the lock**, for any cells, amount, fee rate and
locks, when the sender's lock is that of the public key. -/
theorem signedTransfer_accepted {seed : Bytes} {options : BuildSignedTransferOptions}
    {r : SignedTransferTransaction} {codeHash hashType : JsString} (hhash : SameHash crypto wasm)
    (hkeys : MatchingKeys crypto wasm (toBytes options.publicKey) (toBytes options.secretKey))
    (hlock : buildLockScript wasm codeHash hashType options.publicKey = .ok options.fromLock)
    (hsigned : buildSignedTransfer wasm seed options = .ok r) :
    programEntry crypto (lockGroupHost crypto r options.fromLock) = .ok 0 := by
  obtain ⟨n, bytes, txHash, signature, signed⟩ := buildSignedTransfer_plan hsigned
  obtain ⟨amount, feeRate, cells, plan⟩ := buildTransferTransaction_plan signed.unsigned
  obtain ⟨args, hargs, hargsLen, hfrom⟩ := buildLockScript_eq_ok.1 hlock
  obtain ⟨key, hkey, hverify⟩ := hkeys
  have hselected := plan.planned.selectedCells
  have hindex : groupInputIndex r options.fromLock = some 0 := by
    refine groupInputIndex_eq_zero ?_ ?_ ?_
    · rw [← plan.inputs, ← signed.rawTransaction]
    · rw [hselected]
      exact plan.funding.ownLock
    · rw [hselected]
      exact plan.funding.ne_nil
  have hfield := frame_keys_length signed.publicKey_length signed.signature_length
  have hwitness := readWitnessArgs_lockWitnessArgs (frame (toBytes options.publicKey) signature)
    (by rw [hfield]; decide)
  have hhost : lockGroupHost crypto r options.fromLock =
      hostOf options.fromLock.value (crypto.blake2b256 bytes)
        ⟨some (frame (toBytes options.publicKey) signature), none, none⟩ := by
    simp [lockGroupHost, hostOf, hindex, signed.rawTransaction, signed.serialized, signed.witnesses,
      hexValue_bytesToHex, hwitness, Except.toOption]
  have hscript : options.fromLock.value.args = args := by
    rw [LockScript.value, hfrom, hexValue_bytesToHex]
  have hpk : (toBytes options.publicKey).length = 1952 := signed.publicKey_length
  have hsig : signature.length = 3309 := signed.signature_length
  rw [hhost, programEntry_eq_zero, hscript]
  refine ⟨hargsLen, toBytes options.publicKey, signature, key, ⟨_, rfl, by omega, by omega, [], ?_⟩, hpk, hsig,
    (hhash.hashPubkey _ _ hargs).symm, hkey, ?_⟩
  · rw [List.append_nil]
    rfl
  · rw [← hhash.ckbHash _ _ signed.hashed]
    exact hverify _ _ _ signed.signed

/-! ### A transfer signed with the key of the zero secret -/

/-- The public key of the secret vectors `s1 = s2 = 0` and the matrix seed `0`. -/
def zeroPublicKey : Bytes := List.replicate publicKeyLen 0

/-- Its secret key: the two seeds, the hash of the public key, and the packed zero vectors. -/
def zeroSecretKey : Bytes :=
  List.replicate 64 0 ++
    bufferFromHex (lit "e019e67a77cb2e66521ced7155ffbb9712b7739fd2beb6493d8ae673529cd500") ++
    bufferFromHex (lit "8b50abc881a1484ec327ef9df34b88f263246baa8f7afdad8e115b2717b96a30") ++
    List.replicate 1408 0x44 ++ (List.replicate 192 (bufferFromHex (lit "00100002400008000120000480"))).flatten

/-- The hash of the sample transfer. -/
def sampleTransferHash : Bytes :=
  bufferFromHex (lit "0ad0ee1fcaa7071b619307aa8bac83989ff6ea50222c717018417cd5ada62e1b")

/-- A signature of that hash: the challenge for the zero commitment, the zero response, no hints. -/
def sampleSignature : Bytes :=
  bufferFromHex (lit "0778199d5ac28928518a681af60f4d92a634f5f33eb67e9c") ++
    bufferFromHex (lit "dce84c571cb342007a189fc46a9ba6f2a3220065e4b4973a") ++
    (List.replicate 640 [0x00, 0x00, 0x08, 0x00, 0x80]).flatten ++ List.replicate 61 0

/-- The hash on the two strings that the sample hashes. -/
def sampleBlake2b (data : Bytes) : Bytes :=
  if data.length = publicKeyLen then hexValue senderLock.args else sampleTransferHash

def sampleCrypto : Crypto Unit where
  blake2b256 := sampleBlake2b
  tryFromBytes publicKey := if publicKey.length = publicKeyLen then some () else none
  verify _ message signature context :=
    message == sampleTransferHash && signature == sampleSignature && context == []

def sampleWasm : WasmExports where
  hashPubkey data := .ok (sampleBlake2b data)
  ckbHash data := .ok (sampleBlake2b data)
  signMessageWithSeed _ message _ := if message = sampleTransferHash then .ok sampleSignature else .error 4

def sampleSignedTransfer : BuildSignedTransferOptions where
  toBuildTransferOptions := sampleTransfer
  publicKey := .uint8Array zeroPublicKey
  secretKey := .uint8Array zeroSecretKey

theorem sampleTransfer_hash {unsigned : UnsignedTransferTransaction}
    (hbuild : buildTransferTransaction sampleTransfer = .ok unsigned) :
    ∃ bytes, serializeRawTransaction unsigned.rawTransaction = .ok bytes ∧
      sampleBlake2b bytes = sampleTransferHash := by
  have plan := sampleTransfer_plan hbuild
  obtain ⟨-, htwo, hchange⟩ := sampleTransfer_sizes
  have hsize : (plannedTransaction sampleTransfer 10000000000 1000 [tokenCell, plainCell]).size = 407 := by
    have hplanned := plannedTransaction_size sampleTransfer 10000000000 1000 [tokenCell, plainCell]
    rw [sampleTransfer_surplus, if_pos (by decide), htwo, hchange, List.length_cons, List.length_singleton] at hplanned
    generalize (plannedTransaction sampleTransfer 10000000000 1000 [tokenCell, plainCell]).size = size at hplanned
    omega
  have hcells : ∀ cell ∈ [tokenCell, plainCell], cell ∈ sampleTransfer.cells := by simp [sampleTransfer]
  have hwf : (plannedTransaction sampleTransfer 10000000000 1000 [tokenCell, plainCell]).WellFormed :=
    plannedTransaction_wellFormed sampleTransfer_wellFormed hcells (by rw [sampleTransfer_surplus]; decide)
  obtain ⟨bytes, hbytes⟩ := serializeRawTransaction_returns hwf (by rw [hsize]; decide)
  rw [plan.planned.rawTransaction]
  refine ⟨bytes, hbytes, if_neg ?_⟩
  rw [serializeRawTransaction_size hbytes, hsize]
  decide

theorem zeroSecretKey_length : zeroSecretKey.length = secretKeyLen := by
  have hpattern : ∀ x ∈ List.replicate 192 (bufferFromHex (lit "00100002400008000120000480")), x.length = 13 := by
    intro x hx
    rw [List.eq_of_mem_replicate hx]
    decide
  rw [zeroSecretKey, List.length_append, List.length_append, List.length_append, List.length_append,
    flatten_length_of_size hpattern, List.length_replicate, List.length_replicate, List.length_replicate]
  decide

theorem sampleSignature_length : sampleSignature.length = signatureLen := by
  have hpattern : ∀ x ∈ List.replicate 640 ([0x00, 0x00, 0x08, 0x00, 0x80] : Bytes), x.length = 5 := by
    intro x hx
    rw [List.eq_of_mem_replicate hx]
    decide
  rw [sampleSignature, List.length_append, List.length_append, List.length_append,
    flatten_length_of_size hpattern, List.length_replicate, List.length_replicate]
  decide

theorem sampleWasm_sign (secretKey message seed : Bytes) :
    sampleWasm.signMessageWithSeed secretKey message seed =
      if message = sampleTransferHash then .ok sampleSignature else .error 4 := rfl

theorem sampleWasm_hashPubkey (data : Bytes) : sampleWasm.hashPubkey data = .ok (sampleBlake2b data) := rfl

theorem sampleWasm_ckbHash (data : Bytes) : sampleWasm.ckbHash data = .ok (sampleBlake2b data) := rfl

theorem zeroPublicKey_length : zeroPublicKey.length = publicKeyLen := List.length_replicate

theorem sampleKeys_match : MatchingKeys sampleCrypto sampleWasm zeroPublicKey zeroSecretKey := by
  have hkey : sampleCrypto.tryFromBytes zeroPublicKey = some () := by
    simp only [sampleCrypto, zeroPublicKey_length, if_true]
  refine ⟨(), hkey, fun message seed signature h => ?_⟩
  rw [sampleWasm_sign] at h
  split_ifs at h with hmessage
  rw [← Except.ok.inj h, hmessage]
  simp only [sampleCrypto, beq_self_eq_true, Bool.and_true]

theorem senderLock_eq_buildLockScript :
    buildLockScript sampleWasm senderLock.codeHash senderLock.hashType (.uint8Array zeroPublicKey) =
      .ok senderLock := by
  have hargs : (hexValue senderLock.args).length = lockArgsLen ∧
      senderLock = ⟨senderLock.codeHash, senderLock.hashType, bytesToHex (hexValue senderLock.args)⟩ := by decide
  rw [buildLockScript_eq_ok]
  refine ⟨hexValue senderLock.args, ?_, hargs⟩
  rw [toBytes_uint8Array, sampleWasm_hashPubkey, sampleBlake2b, if_pos zeroPublicKey_length]

theorem sampleSignedTransfer_returns :
    ∃ r, buildSignedTransfer sampleWasm (List.replicate 32 0) sampleSignedTransfer = .ok r := by
  obtain ⟨unsigned, hbuild⟩ := sampleTransfer_returns
  obtain ⟨bytes, hbytes, hhash⟩ := sampleTransfer_hash hbuild
  have hckb : sampleWasm.ckbHash bytes = .ok sampleTransferHash := by rw [sampleWasm_ckbHash, hhash]
  have hsign : ∀ sk seed, sampleWasm.signMessageWithSeed sk sampleTransferHash seed = .ok sampleSignature := by
    intro sk seed
    rw [sampleWasm_sign, if_pos rfl]
  exact buildSignedTransfer_returns sampleSignedTransfer hbuild hbytes hckb (by decide) zeroSecretKey_length
    (hsign _ _) zeroPublicKey_length sampleSignature_length

theorem signedTransfer_accepted_sample :
    ∃ r, buildSignedTransfer sampleWasm (List.replicate 32 0) sampleSignedTransfer = .ok r ∧
      programEntry sampleCrypto (lockGroupHost sampleCrypto r senderLock) = .ok 0 := by
  obtain ⟨r, hr⟩ := sampleSignedTransfer_returns
  have hhash : SameHash sampleCrypto sampleWasm :=
    ⟨fun _ _ h => (Except.ok.inj h).symm, fun _ _ h => (Except.ok.inj h).symm⟩
  have hkeys : MatchingKeys sampleCrypto sampleWasm (toBytes sampleSignedTransfer.publicKey)
      (toBytes sampleSignedTransfer.secretKey) := sampleKeys_match
  have hlock : buildLockScript sampleWasm senderLock.codeHash senderLock.hashType sampleSignedTransfer.publicKey =
      .ok sampleSignedTransfer.fromLock := senderLock_eq_buildLockScript
  exact ⟨r, hr, signedTransfer_accepted hhash hkeys hlock hr⟩

end CkbDilithium.System
