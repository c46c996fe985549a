import CkbDilithium.Sdk.Sign
import CkbDilithium.Transfer.Conservation

/-!
# What a signed transfer carries

A signed transfer is a planned one whose first witness holds the key and the signature of the
transaction hash, the other witnesses being empty (`buildSignedTransfer_plan`); it is signed whenever
the transfer can be built and the module hashes and signs (`buildSignedTransfer_returns`).
-/

namespace CkbDilithium.Sdk

open Js

variable {wasm : WasmExports} {seed : Bytes} {options : BuildSignedTransferOptions}

/-- The parts of a signed transfer of `n + 1` cells. -/
structure SignedPlan (wasm : WasmExports) (seed : Bytes) (options : BuildSignedTransferOptions) (n : Nat)
    (bytes txHash signature : Bytes) (r : SignedTransferTransaction) : Prop where
  unsigned : buildTransferTransaction options.toBuildTransferOptions = .ok r.toUnsignedTransferTransaction
  count : r.selectedCells.length = n + 1
  rawTransaction : r.transaction.toRawTransaction = r.rawTransaction
  serialized : serializeRawTransaction r.rawTransaction = .ok bytes
  hashed : wasm.ckbHash bytes = .ok txHash
  hash_length : txHash.length = lockArgsLen
  secretKey_length : (toBytes options.secretKey).length = secretKeyLen
  signed : wasm.signMessageWithSeed (toBytes options.secretKey) txHash seed = .ok signature
  publicKey_length : (toBytes options.publicKey).length = publicKeyLen
  signature_length : signature.length = signatureLen
  witnesses : r.transaction.witnesses =
    bytesToHex (lockWitnessArgs (frame (toBytes options.publicKey) signature)) :: List.replicate n emptyWitness
  txHash : r.txHash = bytesToHex txHash
  witnessLock : r.witnessLock = bytesToHex (frame (toBytes options.publicKey) signature)

/-- **A signed transfer has the parts of its plan.** -/
theorem buildSignedTransfer_plan {r : SignedTransferTransaction}
    (h : buildSignedTransfer wasm seed options = .ok r) :
    ∃ n bytes txHash signature, SignedPlan wasm seed options n bytes txHash signature r := by
  simp only [buildSignedTransfer, Result.bind_eq_ok, Result.pure_eq_ok, sealTransaction_eq_ok,
    Option.getD_some] at h
  obtain ⟨unsigned, hbuild, _, ⟨bytes, txHash, signature, witnesses, hbytes, hhash, hlen, hsecret, hsign, hpk,
    hsig, hwitnesses, rfl⟩, rfl⟩ := h
  obtain ⟨amount, feeRate, cells, plan⟩ := buildTransferTransaction_plan hbuild
  obtain ⟨n, hn, -⟩ := plan.placeholder_eq
  rw [← plan.planned.selectedCells] at hn
  rw [hn, witnessList_succ] at hwitnesses
  exact ⟨n, bytes, txHash, signature, hbuild, hn, rfl, hbytes, hhash, hlen, hsecret, hsign, hpk, hsig,
    hwitnesses.2, rfl, rfl⟩

theorem frame_keys_length {pk sig : Bytes} (hpk : pk.length = publicKeyLen) (hsig : sig.length = signatureLen) :
    (frame pk sig).length = witnessLockBytes := by
  rw [frame_length, hpk, hsig, witnessLockBytes]

/-- A transfer that can be built is signed when the module hashes and signs it. -/
theorem buildSignedTransfer_returns (options : BuildSignedTransferOptions)
    {unsigned : UnsignedTransferTransaction} {bytes txHash signature : Bytes}
    (hbuild : buildTransferTransaction options.toBuildTransferOptions = .ok unsigned)
    (hbytes : serializeRawTransaction unsigned.rawTransaction = .ok bytes)
    (hhash : wasm.ckbHash bytes = .ok txHash) (hlen : txHash.length = lockArgsLen)
    (hsecret : (toBytes options.secretKey).length = secretKeyLen)
    (hsign : wasm.signMessageWithSeed (toBytes options.secretKey) txHash seed = .ok signature)
    (hpk : (toBytes options.publicKey).length = publicKeyLen) (hsig : signature.length = signatureLen) :
    ∃ r, buildSignedTransfer wasm seed options = .ok r := by
  obtain ⟨amount, feeRate, cells, plan⟩ := buildTransferTransaction_plan hbuild
  obtain ⟨n, hn, -⟩ := plan.placeholder_eq
  rw [← plan.planned.selectedCells] at hn
  have hwitnesses : witnessList unsigned.selectedCells.length (frame (toBytes options.publicKey) signature) =
      .ok (bytesToHex (lockWitnessArgs (frame (toBytes options.publicKey) signature)) ::
        List.replicate n emptyWitness) := by
    rw [hn, witnessList_succ, frame_keys_length hpk hsig]
    exact ⟨by decide, rfl⟩
  simp only [buildSignedTransfer, hbuild, Result.ok_bind, Result.bind_eq_ok, sealTransaction_eq_ok,
    Option.getD_some, Result.pure_eq_ok]
  exact ⟨_, _, ⟨bytes, txHash, signature, _, hbytes, hhash, hlen, hsecret, hsign, hpk, hsig, hwitnesses, rfl⟩, rfl⟩

end CkbDilithium.Sdk
