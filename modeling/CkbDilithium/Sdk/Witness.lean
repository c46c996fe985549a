import CkbDilithium.Sdk.Util
import CkbDilithium.Lib.Framing

/-!
# The witness lock codec of the SDK

`sdk/src/witness.ts`: `buildWitnessLock` writes the two length-prefixed parts into a buffer of their
exact size, `parseWitnessLock` reads them with a `DataView`, whose reads out of range throw.
-/

namespace CkbDilithium.Sdk

open Js

/-- `output.set(part, offset)`, within the size of `output`. -/
def setBytes (output part : Bytes) (offset : Nat) : Bytes :=
  output.take offset ++ part ++ output.drop (offset + part.length)

/-- `view.setUint32(offset, value, true)`. -/
def writeU32LE (output : Bytes) (offset value : Nat) : Bytes := setBytes output (leBytes 4 value) offset

/-- `view.getUint32(offset, true)`. -/
def getUint32 (input : Bytes) (offset : Nat) : Js Nat :=
  if input.length < offset + 4 then throw (.rangeError (lit "Offset is outside the bounds of the DataView"))
  else pure (leVal (slice input offset (offset + 4)))

def publicKeyMessage : JsString := lit "public key must be " ++ toRadix 10 publicKeyLen ++ lit " bytes"

def signatureMessage : JsString := lit "signature must be " ++ toRadix 10 signatureLen ++ lit " bytes"

def buildWitnessLock (publicKey signature : ByteLike) : Js Bytes :=
  let publicKeyBytes := toBytes publicKey
  let signatureBytes := toBytes signature
  if publicKeyBytes.length ≠ publicKeyLen then raise publicKeyMessage
  else if signatureBytes.length ≠ signatureLen then raise signatureMessage
  else
    let output : Bytes := List.replicate (4 + publicKeyBytes.length + 4 + signatureBytes.length) 0
    let output := writeU32LE output 0 publicKeyBytes.length
    let output := setBytes output publicKeyBytes 4
    let output := writeU32LE output (4 + publicKeyBytes.length) signatureBytes.length
    pure (setBytes output signatureBytes (8 + publicKeyBytes.length))

def parseWitnessLock (bytes : ByteLike) : Js ParsedWitnessLock :=
  let input := toBytes bytes
  if input.length < 8 then raise (lit "witness lock is too short")
  else do
    let publicKeyLength ← getUint32 input 0
    let publicKeyStart := 4
    let publicKeyEnd := publicKeyStart + publicKeyLength
    if input.length < publicKeyEnd + 4 then
      raise (lit "witness lock is missing the signature length field")
    else do
      let signatureLength ← getUint32 input publicKeyEnd
      let signatureStart := publicKeyEnd + 4
      let signatureEnd := signatureStart + signatureLength
      if input.length ≠ signatureEnd then
        raise (lit "witness lock length does not match encoded contents")
      else
        let publicKey := slice input publicKeyStart publicKeyEnd
        let signature := slice input signatureStart signatureEnd
        if publicKey.length ≠ publicKeyLen then raise publicKeyMessage
        else if signature.length ≠ signatureLen then raise signatureMessage
        else pure { publicKey, signature }

/-- Writing a part right after the bytes written so far. -/
theorem setBytes_replicate (done part : Bytes) {offset : Nat} (n : Nat) (hoffset : offset = done.length) :
    setBytes (done ++ List.replicate n 0) part offset =
      (done ++ part) ++ List.replicate (n - part.length) 0 := by
  subst hoffset
  simp [setBytes]

/-- The four writes leave no zero of the fresh buffer. -/
theorem buildWitnessLock_eq_ok {publicKey signature : ByteLike} {w : Bytes} :
    buildWitnessLock publicKey signature = .ok w ↔
      (toBytes publicKey).length = publicKeyLen ∧ (toBytes signature).length = signatureLen ∧
        w = frame (toBytes publicKey) (toBytes signature) := by
  simp only [buildWitnessLock, ite_raise_eq_ok, Result.pure_eq_ok, not_not]
  refine and_congr_right fun _ => and_congr_right fun _ => ?_
  set pk := toBytes publicKey
  set sig := toBytes signature
  have hstart : (List.replicate (4 + pk.length + 4 + sig.length) 0 : Bytes) =
      [] ++ List.replicate (4 + pk.length + 4 + sig.length) 0 := rfl
  rw [hstart, writeU32LE, writeU32LE,
    setBytes_replicate [] _ _ (show 0 = ([] : Bytes).length from rfl),
    setBytes_replicate _ _ _ (show 4 = ([] ++ leBytes 4 pk.length).length by simp),
    setBytes_replicate _ _ _ (show 4 + pk.length = ([] ++ leBytes 4 pk.length ++ pk).length by simp),
    setBytes_replicate _ _ _ (show 8 + pk.length =
      ([] ++ leBytes 4 pk.length ++ pk ++ leBytes 4 sig.length).length by simp; omega)]
  have hrest : 4 + pk.length + 4 + sig.length - (leBytes 4 pk.length).length - pk.length -
      (leBytes 4 sig.length).length - sig.length = 0 := by
    simp only [leBytes_length]
    omega
  rw [hrest, List.replicate_zero, List.append_nil, List.nil_append, frame]
  exact eq_comm

theorem getUint32_eq {input : Bytes} {offset : Nat} (h : offset + 4 ≤ input.length) :
    getUint32 input offset = .ok (leVal (slice input offset (offset + 4))) := if_neg (by omega)

/-- **The SDK parser accepts exactly the witness locks the SDK builds.** -/
theorem parseWitnessLock_eq_ok {bytes : ByteLike} {pk sig : Bytes} :
    parseWitnessLock bytes = .ok ⟨pk, sig⟩ ↔
      pk.length = publicKeyLen ∧ sig.length = signatureLen ∧ toBytes bytes = frame pk sig := by
  simp only [parseWitnessLock, ite_raise_eq_ok]
  set input := toBytes bytes
  constructor
  · intro h
    rcases h with ⟨h8, h⟩
    have hfirst : 4 + leVal (slice input 0 (0 + 4)) = firstEnd input := rfl
    simp only [getUint32_eq (show 0 + 4 ≤ input.length by omega), Result.ok_bind, hfirst,
      ite_raise_eq_ok, not_lt] at h
    obtain ⟨hpk, h⟩ := h
    have hsecond : firstEnd input + 4 + leVal (slice input (firstEnd input) (firstEnd input + 4)) =
        secondEnd input := rfl
    simp only [getUint32_eq hpk, Result.ok_bind, hsecond, ite_raise_eq_ok, not_not,
      Result.pure_eq_ok, ParsedWitnessLock.mk.injEq] at h
    obtain ⟨hlen, hpkLen, hsigLen, rfl, rfl⟩ := h
    refine ⟨hpkLen, hsigLen, ?_⟩
    have hframe := frame_append_drop hlen.ge
    rw [List.drop_eq_nil_of_le hlen.le, List.append_nil] at hframe
    exact hframe.symm
  · intro h
    rcases h with ⟨hpk, hsig, hinput⟩
    obtain ⟨hfirst, hsecond, hpkPart, hsigPart⟩ := cut_frame (a := pk) (b := sig)
      (by rw [hpk, publicKeyLen]; omega) (by rw [hsig, signatureLen]; omega) []
    rw [List.append_nil, ← hinput] at hfirst hsecond hpkPart hsigPart
    have hlen : input.length = 4 + pk.length + 4 + sig.length := by rw [hinput, frame_length]
    have hfirst' : 4 + leVal (slice input 0 (0 + 4)) = 4 + pk.length := hfirst
    have hsecond' : 4 + pk.length + 4 + leVal (slice input (4 + pk.length) (4 + pk.length + 4)) =
        4 + pk.length + 4 + sig.length := by
      rw [← hsecond, secondEnd, hfirst]
    refine ⟨by omega, ?_⟩
    rw [getUint32_eq (by omega), Result.ok_bind, hfirst', if_neg (by omega), getUint32_eq (by omega),
      Result.ok_bind, hsecond', if_neg (by omega), hpkPart, hsigPart, if_neg (not_not.2 hpk),
      if_neg (not_not.2 hsig)]
    rfl

/-- The texts of the errors of `parseWitnessLock`. -/
def witnessLockMessages : List JsString :=
  [lit "witness lock is too short", lit "witness lock is missing the signature length field",
    lit "witness lock length does not match encoded contents", publicKeyMessage, signatureMessage]

/-- **Every read of the parser is inside its input**: each rejection is one of its own checks, and no
`DataView` access is out of range. -/
theorem parseWitnessLock_eq_error {bytes : ByteLike} {e : JsError}
    (h : parseWitnessLock bytes = .error e) : ∃ message ∈ witnessLockMessages, e = .error message := by
  have hraise : ∀ {message : JsString}, message ∈ witnessLockMessages →
      (raise message : Js ParsedWitnessLock) = .error e → ∃ message ∈ witnessLockMessages, e = .error message := by
    intro message hmem hraise
    exact ⟨message, hmem, (Except.error.inj hraise).symm⟩
  unfold parseWitnessLock at h
  simp only at h
  set input := toBytes bytes
  by_cases h8 : input.length < 8
  · rw [if_pos h8] at h
    exact hraise (by simp [witnessLockMessages]) h
  rw [if_neg h8, getUint32_eq (show 0 + 4 ≤ input.length by omega), Result.ok_bind] at h
  by_cases hpk : input.length < 4 + leVal (slice input 0 (0 + 4)) + 4
  · rw [if_pos hpk] at h
    exact hraise (by simp [witnessLockMessages]) h
  rw [if_neg hpk, getUint32_eq (not_lt.1 hpk), Result.ok_bind] at h
  split_ifs at h
  · exact hraise (by simp [witnessLockMessages]) h
  · exact hraise (by simp [witnessLockMessages]) h
  · exact hraise (by simp [witnessLockMessages]) h
  · cases h

end CkbDilithium.Sdk
