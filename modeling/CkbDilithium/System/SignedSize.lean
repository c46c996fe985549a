import CkbDilithium.System.Acceptance

/-!
# The size of a signed transfer

The fee of a transfer is planned for the placeholder transaction. Signing replaces the zeros of the
lock field by as many bytes, so that the signed transaction has the planned size and the same
molecule headers (`buildSignedTransfer_size`).
-/

namespace CkbDilithium.System

open Sdk Js

variable {wasm : WasmExports} {seed : Bytes} {options : BuildSignedTransferOptions}

/-- Both are hex strings of equally many bytes. -/
def SameByteLength (witness placeholder : JsString) : Prop :=
  ∃ bytes bytes', hexToBytes witness = .ok bytes ∧ hexToBytes placeholder = .ok bytes' ∧
    bytes.length = bytes'.length

theorem sameByteLength_bytesToHex {bytes bytes' : Bytes} (h : bytes.length = bytes'.length) :
    SameByteLength (bytesToHex bytes) (bytesToHex bytes') :=
  ⟨bytes, bytes', hexToBytes_bytesToHex bytes, hexToBytes_bytesToHex bytes', h⟩

/-- Witness by witness, the lock fields having one length. -/
theorem sameByteLength_witnesses (tx : RawTransaction) (n : Nat) {lock lock' : Bytes}
    (h : lock.length = lock'.length) :
    List.Forall₂ SameByteLength (witnessedTransaction tx n lock).witnesses
      (witnessedTransaction tx n lock').witnesses := by
  have hargs : (lockWitnessArgs lock).length = (lockWitnessArgs lock').length := by
    rw [lockWitnessArgs_length, lockWitnessArgs_length, h]
  refine .cons (sameByteLength_bytesToHex hargs) ?_
  rw [List.forall₂_same]
  intro s hs
  rw [List.eq_of_mem_replicate hs]
  exact sameByteLength_bytesToHex rfl

/-- The signed transaction and its placeholder differ in the contents of the lock field. -/
theorem SignedPlan.witnessed {n : Nat} {bytes txHash signature : Bytes} {r : SignedTransferTransaction}
    (h : SignedPlan wasm seed options n bytes txHash signature r) :
    r.transaction = witnessedTransaction r.rawTransaction n (frame (toBytes options.publicKey) signature) ∧
      r.placeholderTransaction =
        witnessedTransaction r.rawTransaction n (List.replicate witnessLockBytes 0) := by
  obtain ⟨amount, feeRate, cells, plan⟩ := buildTransferTransaction_plan h.unsigned
  obtain ⟨m, hm, hplaceholder⟩ := plan.placeholder_eq
  have hcount := h.count
  rw [plan.planned.selectedCells, hm, Nat.add_right_cancel_iff] at hcount
  subst hcount
  refine ⟨?_, hplaceholder⟩
  rw [witnessedTransaction, ← h.witnesses, ← h.rawTransaction]

/-- **Signing does not change the size the fee was planned for.** The signed transaction is serialized
to `txSize` bytes; its raw part is the planned one and each witness has the length of its placeholder;
and the two serializations are the same, headers and offset tables included, except for the
`witnessLockBytes` bytes of the lock field. -/
theorem buildSignedTransfer_size {r : SignedTransferTransaction}
    (h : buildSignedTransfer wasm seed options = .ok r) :
    (∃ bytes, serializeTransaction r.transaction = .ok bytes ∧ bytes.length = r.txSize) ∧
    r.transaction.toRawTransaction = r.rawTransaction ∧
    List.Forall₂ SameByteLength r.transaction.witnesses r.placeholderTransaction.witnesses ∧
    ∃ before lock after, lock.length = witnessLockBytes ∧ r.witnessLock = bytesToHex lock ∧
      serializeTransaction r.placeholderTransaction =
        .ok (before ++ List.replicate witnessLockBytes 0 ++ after) ∧
      serializeTransaction r.transaction = .ok (before ++ lock ++ after) := by
  obtain ⟨n, raw, txHash, signature, signed⟩ := buildSignedTransfer_plan h
  obtain ⟨htransaction, hplaceholder⟩ := SignedPlan.witnessed signed
  obtain ⟨bytes, hbytes, hsize⟩ := buildTransferTransaction_serialized signed.unsigned
  have hlock := frame_keys_length signed.publicKey_length signed.signature_length
  have hzeros : (frame (toBytes options.publicKey) signature).length =
      (List.replicate witnessLockBytes (0 : UInt8)).length := by
    rw [hlock, List.length_replicate]
  rw [hplaceholder] at hbytes
  obtain ⟨before, after, hbefore, hafter⟩ := serializeTransaction_fill hzeros hbytes
  have hwritten : bytes = before ++ List.replicate witnessLockBytes 0 ++ after :=
    Result.ok_unique hbytes hbefore
  refine ⟨?_, signed.rawTransaction, ?_, before, _, after, hlock, signed.witnessLock, ?_, ?_⟩
  · refine ⟨_, htransaction ▸ hafter, ?_⟩
    rw [← hsize, hwritten]
    simp only [List.length_append, hzeros]
  · rw [htransaction, hplaceholder]
    exact sameByteLength_witnesses r.rawTransaction n hzeros
  · rw [hplaceholder]
    exact hbefore
  · rw [htransaction]
    exact hafter

theorem buildSignedTransfer_size_sample :
    ∃ r, buildSignedTransfer sampleWasm (List.replicate 32 0) sampleSignedTransfer = .ok r ∧
      ∃ bytes, serializeTransaction r.transaction = .ok bytes ∧ bytes.length = r.txSize := by
  obtain ⟨r, hr⟩ := sampleSignedTransfer_returns
  exact ⟨r, hr, (buildSignedTransfer_size hr).1⟩

end CkbDilithium.System
