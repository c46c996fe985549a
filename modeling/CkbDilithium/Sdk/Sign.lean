import CkbDilithium.Sdk.Transfer
import CkbDilithium.Sdk.Witness

/-!
# Keys, hashes and signing

`sdk/src/crypto.ts`, `hash.ts`, `lock.ts` and the signing half of `wallet.ts`. The functions of the
WebAssembly module are parameters (`WasmExports`): each returns the bytes it leaves in memory, or its
status when that is not zero. The random seed of a signature is an argument; an awaited promise is its
result.
-/

namespace CkbDilithium.Sdk

open Js

structure WasmExports where
  hashPubkey : (publicKey : Bytes) → Except Nat Bytes
  ckbHash : (data : Bytes) → Except Nat Bytes
  signMessageWithSeed : (secretKey message seed : Bytes) → Except Nat Bytes

/-! ### Errors of the module -/

def wasmErrors : Nat → Option JsString
  | 1 => some (lit "invalid input length")
  | 2 => some (lit "key generation failed")
  | 3 => some (lit "key deserialization failed")
  | 4 => some (lit "signature operation failed")
  | _ => none

def encodeError {α : Type} (code : Nat) : Js α :=
  raise ((wasmErrors code).getD (lit "wasm error " ++ toRadix 10 code))

/-- The bytes of a call, or the error of its status. -/
def callWasm : Except Nat Bytes → Js Bytes
  | .ok output => pure output
  | .error status => encodeError status

/-! ### Hashes and locks -/

section

variable (wasm : WasmExports)

def ckbHash (data : ByteLike) : Js Bytes := do
  let dataBytes := toBytes data
  let output ← callWasm (wasm.ckbHash dataBytes)
  if output.length ≠ lockArgsLen then raise (lit "CKB hash must be " ++ toRadix 10 lockArgsLen ++ lit " bytes")
  else pure output

def computeLockArgs (publicKey : ByteLike) : Js Bytes := do
  let bytes := toBytes publicKey
  let output ← callWasm (wasm.hashPubkey bytes)
  if output.length ≠ lockArgsLen then raise (lit "lock args must be " ++ toRadix 10 lockArgsLen ++ lit " bytes")
  else pure output

def buildLockScript (codeHash hashType : JsString) (publicKey : ByteLike) : Js LockScript := do
  let args ← computeLockArgs wasm publicKey
  pure { codeHash, hashType, args := bytesToHex args }

def computeTransactionHash (rawTransaction : RawTransaction) : Js Bytes := do
  ckbHash wasm (.uint8Array (← serializeRawTransaction rawTransaction))

/-! ### Signing -/

variable (seed : Bytes)

def signTxHash (secretKey txHash : ByteLike) : Js Bytes :=
  let secretKeyBytes := toBytes secretKey
  let messageBytes := toBytes txHash
  if secretKeyBytes.length ≠ secretKeyLen then
    raise (lit "secret key must be " ++ toRadix 10 secretKeyLen ++ lit " bytes")
  else callWasm (wasm.signMessageWithSeed secretKeyBytes messageBytes seed)

def sealTransaction (options : SealTransactionOptions) : Js SignedTransaction := do
  let txHashBytes ← computeTransactionHash wasm options.rawTransaction
  let publicKey := toBytes options.publicKey
  let secretKey := toBytes options.secretKey
  let signature ← signTxHash wasm seed (.uint8Array secretKey) (.uint8Array txHashBytes)
  let witnessLock ← buildWitnessLock (.uint8Array publicKey) (.uint8Array signature)
  let witnessCount := options.witnessCount.getD options.rawTransaction.inputs.length
  let witnesses ← witnessList witnessCount witnessLock
  pure {
    transaction := { toRawTransaction := options.rawTransaction, witnesses }
    txHash := bytesToHex txHashBytes
    witnessLock := bytesToHex witnessLock }

def buildSignedTransfer (options : BuildSignedTransferOptions) : Js SignedTransferTransaction := do
  let unsigned ← buildTransferTransaction options.toBuildTransferOptions
  let signed ← sealTransaction wasm seed {
    rawTransaction := unsigned.rawTransaction
    publicKey := options.publicKey
    secretKey := options.secretKey
    witnessCount := some unsigned.selectedCells.length }
  pure {
    toUnsignedTransferTransaction := unsigned
    transaction := signed.transaction
    txHash := signed.txHash
    witnessLock := signed.witnessLock }

/-- The part of `buildSignedTransfer` that comes before `signMessage` draws the seed. -/
def beforeSeed (options : BuildSignedTransferOptions) : Js Unit := do
  let unsigned ← buildTransferTransaction options.toBuildTransferOptions
  let _ ← computeTransactionHash wasm unsigned.rawTransaction
  if (toBytes options.secretKey).length ≠ secretKeyLen then
    raise (lit "secret key must be " ++ toRadix 10 secretKeyLen ++ lit " bytes")
  else pure ()

end

/-! ### Runs that return -/

theorem callWasm_eq_ok {result : Except Nat Bytes} {output : Bytes} :
    callWasm result = .ok output ↔ result = .ok output := by
  cases result with
  | error status => simp [callWasm, encodeError]
  | ok bytes => simp [callWasm]

variable {wasm : WasmExports} {seed : Bytes}

theorem ckbHash_eq_ok {data : ByteLike} {output : Bytes} :
    ckbHash wasm data = .ok output ↔ wasm.ckbHash (toBytes data) = .ok output ∧ output.length = lockArgsLen := by
  simp only [ckbHash, Result.bind_eq_ok, callWasm_eq_ok, ite_raise_eq_ok, not_not, Result.pure_eq_ok]
  constructor
  · intro h
    rcases h with ⟨_, hhash, hlen, rfl⟩
    exact ⟨hhash, hlen⟩
  · intro h
    rcases h with ⟨hhash, hlen⟩
    exact ⟨output, hhash, hlen, rfl⟩

theorem buildLockScript_eq_ok {codeHash hashType : JsString} {publicKey : ByteLike} {lock : LockScript} :
    buildLockScript wasm codeHash hashType publicKey = .ok lock ↔
      ∃ args, wasm.hashPubkey (toBytes publicKey) = .ok args ∧ args.length = lockArgsLen ∧
        lock = ⟨codeHash, hashType, bytesToHex args⟩ := by
  simp only [buildLockScript, computeLockArgs, Result.bind_eq_ok, callWasm_eq_ok, ite_raise_eq_ok, not_not,
    Result.pure_eq_ok]
  constructor
  · intro h
    rcases h with ⟨args, ⟨_, hhash, hlen, rfl⟩, rfl⟩
    exact ⟨_, hhash, hlen, rfl⟩
  · intro h
    rcases h with ⟨args, hhash, hlen, rfl⟩
    exact ⟨args, ⟨args, hhash, hlen, rfl⟩, rfl⟩

theorem signTxHash_eq_ok {secretKey txHash : ByteLike} {signature : Bytes} :
    signTxHash wasm seed secretKey txHash = .ok signature ↔ (toBytes secretKey).length = secretKeyLen ∧
      wasm.signMessageWithSeed (toBytes secretKey) (toBytes txHash) seed = .ok signature := by
  simp only [signTxHash, ite_raise_eq_ok, not_not, callWasm_eq_ok]

/-- A sealed transaction carries the signature of its hash in the lock field of the first witness. -/
theorem sealTransaction_eq_ok {options : SealTransactionOptions} {signed : SignedTransaction} :
    sealTransaction wasm seed options = .ok signed ↔
      ∃ bytes txHash signature witnesses,
        serializeRawTransaction options.rawTransaction = .ok bytes ∧
        wasm.ckbHash bytes = .ok txHash ∧ txHash.length = lockArgsLen ∧
        (toBytes options.secretKey).length = secretKeyLen ∧
        wasm.signMessageWithSeed (toBytes options.secretKey) txHash seed = .ok signature ∧
        (toBytes options.publicKey).length = publicKeyLen ∧ signature.length = signatureLen ∧
        witnessList (options.witnessCount.getD options.rawTransaction.inputs.length)
          (frame (toBytes options.publicKey) signature) = .ok witnesses ∧
        signed = {
          transaction := { toRawTransaction := options.rawTransaction, witnesses }
          txHash := bytesToHex txHash
          witnessLock := bytesToHex (frame (toBytes options.publicKey) signature) } := by
  simp only [sealTransaction, computeTransactionHash, Result.bind_eq_ok, ckbHash_eq_ok, signTxHash_eq_ok,
    toBytes_uint8Array, buildWitnessLock_eq_ok, Result.pure_eq_ok]
  constructor
  · intro h
    rcases h with ⟨txHash, ⟨bytes, hbytes, hhash, hlen⟩, signature, ⟨hsecret, hsign⟩, _, ⟨hpk, hsig, rfl⟩, witnesses,
      hwitnesses, rfl⟩
    exact ⟨bytes, txHash, signature, witnesses, hbytes, hhash, hlen, hsecret, hsign, hpk, hsig, hwitnesses, rfl⟩
  · intro h
    rcases h with ⟨bytes, txHash, signature, witnesses, hbytes, hhash, hlen, hsecret, hsign, hpk, hsig,
      hwitnesses, rfl⟩
    exact ⟨txHash, ⟨bytes, hbytes, hhash, hlen⟩, signature, ⟨hsecret, hsign⟩, _, ⟨hpk, hsig, rfl⟩, witnesses,
      hwitnesses, rfl⟩

/-- What fails before the seed is drawn fails with every seed. -/
theorem buildSignedTransfer_beforeSeed (wasm : WasmExports) (seed : Bytes) (options : BuildSignedTransferOptions) :
    buildSignedTransfer wasm seed options =
      beforeSeed wasm options >>= fun _ => buildSignedTransfer wasm seed options := by
  unfold beforeSeed
  cases hbuild : buildTransferTransaction options.toBuildTransferOptions with
  | error e => simp [buildSignedTransfer, hbuild]
  | ok unsigned =>
    cases hhash : computeTransactionHash wasm unsigned.rawTransaction with
    | error e => simp [buildSignedTransfer, sealTransaction, hbuild, hhash]
    | ok txHash =>
      by_cases hlen : (toBytes options.secretKey).length = secretKeyLen
      · simp [hhash, hlen]
      · simp only [buildSignedTransfer, sealTransaction, signTxHash, hbuild, hhash, hlen, Result.ok_bind,
          toBytes_uint8Array, ne_eq, not_false_eq_true, if_true]
        rfl

theorem beforeSeed_of_signed {options : BuildSignedTransferOptions} {r : SignedTransferTransaction}
    (h : buildSignedTransfer wasm seed options = .ok r) : beforeSeed wasm options = .ok () := by
  rw [buildSignedTransfer_beforeSeed, Result.bind_eq_ok] at h
  obtain ⟨⟨⟩, hbefore, -⟩ := h
  exact hbefore

end CkbDilithium.Sdk
