import CkbDilithium.Address.Canonical
import CkbDilithium.Transfer.Conservation

/-!
# One lock, several spellings

`sameLock` compares the texts of two scripts, the chain compares their serialized bytes. Two scripts are
serialized alike exactly when their fields decode to the same values (`serializeScript_eq_iff`), which
differently written fields can do. The two comparisons agree unless the scripts are different spellings
of one lock (`sameLock_iff_serializeScript`); canonically written scripts never are.
-/

namespace CkbDilithium.Sdk

open Js Molecule

variable {l r : LockScript}

/-! ### What the serialized bytes determine -/

/-- The fields of the scripts decode to the same values. -/
structure SameValues (l r : LockScript) : Prop where
  codeHash : hexToBytes l.codeHash = hexToBytes r.codeHash
  hashType : hashTypeByte l.hashType = hashTypeByte r.hashType
  args : hexToBytes l.args = hexToBytes r.args

/-- Different texts with the same values. -/
def Respelled (l r : LockScript) : Prop := SameValues l r ∧ l ≠ r

/-- The parts of a serialized script. -/
theorem serializeScript_eq_ok {script : LockScript} {bytes : Bytes} :
    serializeScript script = .ok bytes ↔
      ∃ codeHash byte args, hexToBytes script.codeHash = .ok codeHash ∧ hashTypeByte script.hashType = .ok byte ∧
        hexToBytes script.args = .ok args ∧ args.length < 2 ^ 32 ∧
        headerSize [codeHash, [UInt8.ofNat byte], encodeFixVec (args.map fun b => [b])] +
          [codeHash, [UInt8.ofNat byte], encodeFixVec (args.map fun b => [b])].flatten.length < 2 ^ 32 ∧
        bytes = encodeDynVec [codeHash, [UInt8.ofNat byte], encodeFixVec (args.map fun b => [b])] := by
  simp only [serializeScript, Result.bind_eq_ok, serializeBytes_eq_ok, serializeTable_eq_ok]
  constructor
  · intro h
    rcases h with ⟨codeHash, hcode, byte, hbyte, args, hargs, _, ⟨hlen, rfl⟩, hsize, rfl⟩
    exact ⟨codeHash, byte, args, hcode, hbyte, hargs, hlen, hsize, rfl⟩
  · intro h
    rcases h with ⟨codeHash, byte, args, hcode, hbyte, hargs, hlen, hsize, rfl⟩
    exact ⟨codeHash, hcode, byte, hbyte, args, hargs, _, ⟨hlen, rfl⟩, hsize, rfl⟩

/-- **Scripts that are serialized are serialized alike exactly when their fields have the same values.** -/
theorem serializeScript_eq_iff {left right : Bytes} (hl : serializeScript l = .ok left)
    (hr : serializeScript r = .ok right) : serializeScript l = serializeScript r ↔ SameValues l r := by
  constructor
  · intro h
    obtain ⟨codeHash, byte, args, hcode, hbyte, hargs, hlen, hsize, rfl⟩ := serializeScript_eq_ok.1 hl
    obtain ⟨codeHash', byte', args', hcode', hbyte', hargs', hlen', hsize', rfl⟩ := serializeScript_eq_ok.1 hr
    rw [hl, hr, Except.ok.injEq] at h
    -- Both readings of the same bytes give the three fields.
    have hfields := congrArg readDynVec h
    rw [readDynVec_encode hsize, readDynVec_encode hsize'] at hfields
    simp only [Option.some.injEq, List.cons.injEq, and_true] at hfields
    obtain ⟨rfl, hbytes, hargBytes⟩ := hfields
    have hread := congrArg readBytes hargBytes
    rw [readBytes_encode hlen, readBytes_encode hlen', Option.some.injEq] at hread
    subst hread
    have hsame : byte = byte' := by
      have hval := congrArg UInt8.toNat hbytes
      have hlt := hashTypeByte_lt hbyte
      have hlt' := hashTypeByte_lt hbyte'
      rw [UInt8.toNat_ofNat', UInt8.toNat_ofNat'] at hval
      omega
    subst hsame
    exact ⟨hcode.trans hcode'.symm, hbyte.trans hbyte'.symm, hargs.trans hargs'.symm⟩
  · intro h
    rw [serializeScript, serializeScript, h.codeHash, h.hashType, h.args]

/-! ### Canonically written scripts -/

theorem hexToBytes_lowerHex_inj {hex hex' : JsString} (h : LowerHex hex) (h' : LowerHex hex')
    (heven : hex.length % 2 = 0) (heven' : hex'.length % 2 = 0)
    (heq : hexToBytes (lit "0x" ++ hex) = hexToBytes (lit "0x" ++ hex')) : hex = hex' := by
  obtain ⟨bytes, -, hbytes⟩ := h.exists_bytes heven
  obtain ⟨bytes', -, hbytes'⟩ := h'.exists_bytes heven'
  rw [hbytes, hbytes', hexToBytes_bytesToHex, hexToBytes_bytesToHex, Except.ok.injEq] at heq
  rw [heq, ← hbytes'] at hbytes
  exact List.append_cancel_left hbytes

/-- Canonical spelling is unique. -/
theorem CanonicalScript.eq_of_sameValues (hl : CanonicalScript l) (hr : CanonicalScript r) (h : SameValues l r) :
    l = r := by
  obtain ⟨code, hcode, hcodeLower, hcodeLen⟩ := hl.codeHash
  obtain ⟨code', hcode', hcodeLower', hcodeLen'⟩ := hr.codeHash
  obtain ⟨args, hargs, hargsLower, hargsEven⟩ := hl.args
  obtain ⟨args', hargs', hargsLower', hargsEven'⟩ := hr.args
  obtain ⟨byte, hbyte⟩ := hl.hashType
  obtain ⟨byte', hbyte'⟩ := hr.hashType
  have hcodes := h.codeHash
  rw [hcode, hcode'] at hcodes
  have harg := h.args
  rw [hargs, hargs'] at harg
  have htype := h.hashType
  rw [hbyte.hashTypeByte_eq, hbyte'.hashTypeByte_eq, Except.ok.injEq] at htype
  obtain rfl := hexToBytes_lowerHex_inj hcodeLower hcodeLower' (by omega) (by omega) hcodes
  obtain rfl := hexToBytes_lowerHex_inj hargsLower hargsLower' hargsEven hargsEven' harg
  subst htype
  obtain ⟨c, t, a⟩ := l
  obtain ⟨c', t', a'⟩ := r
  simp only at hcode hcode' hargs hargs' hbyte hbyte'
  rw [hcode, hcode', hargs, hargs', hbyte.unique hbyte']

/-! ### The two comparisons -/

/-- **The wallet and the chain compare two locks alike exactly when they are not two spellings of one
lock**; on canonically written scripts they always do. -/
theorem sameLock_iff_serializeScript {left right : Bytes} (hl : serializeScript l = .ok left)
    (hr : serializeScript r = .ok right) :
    ((sameLock l r = true ↔ serializeScript l = serializeScript r) ↔ ¬ Respelled l r) ∧
      (CanonicalScript l → CanonicalScript r →
        (sameLock l r = true ↔ serializeScript l = serializeScript r)) := by
  have hiff : (sameLock l r = true ↔ serializeScript l = serializeScript r) ↔ ¬ Respelled l r := by
    rw [sameLock_iff, serializeScript_eq_iff hl hr, Respelled]
    constructor
    · intro h hspelled
      exact hspelled.2 (h.2 hspelled.1)
    · intro h
      refine ⟨fun heq => heq ▸ ⟨rfl, rfl, rfl⟩, fun hvalues => ?_⟩
      by_contra hne
      exact h ⟨hvalues, hne⟩
  refine ⟨hiff, fun hcl hcr => hiff.2 fun hspelled => ?_⟩
  exact hspelled.2 (hcl.eq_of_sameValues hcr hspelled.1)

/-! ### A code hash in upper case -/

/-- The lock of the sample sender as a deployment file may write it. -/
def senderLockUpper : LockScript :=
  { senderLock with codeHash := lit "0x9BD7E06F3ECF4BE0F2FCD2188B23F1B9FCC88E5D4B65A8637B17723BBDA3CCE8" }

theorem senderLockUpper_sameValues : SameValues senderLock senderLockUpper :=
  ⟨by decide +kernel, rfl, rfl⟩

theorem senderLock_serialized : ∃ bytes, serializeScript senderLock = .ok bytes := by
  have hsize : scriptSize senderLock < 2 ^ 32 := by decide +kernel
  exact serializeScript_returns sampleTransfer_wellFormed.changeLock hsize

theorem sameLock_iff_serializeScript_senderLock :
    (sameLock senderLock senderLock = true ↔ serializeScript senderLock = serializeScript senderLock) ↔
      ¬ Respelled senderLock senderLock := by
  obtain ⟨bytes, hbytes⟩ := senderLock_serialized
  exact (sameLock_iff_serializeScript hbytes hbytes).1

/-- The chain takes the two spellings for one lock, the wallet for two. -/
theorem senderLockUpper_not_recognised :
    (∃ bytes, serializeScript senderLock = .ok bytes ∧ serializeScript senderLockUpper = .ok bytes) ∧
      sameLock senderLock senderLockUpper = false := by
  obtain ⟨bytes, hbytes⟩ := senderLock_serialized
  have hvalues := senderLockUpper_sameValues
  have hupper : serializeScript senderLockUpper = .ok bytes := by
    rw [serializeScript, ← hvalues.codeHash, ← hvalues.hashType, ← hvalues.args]
    exact hbytes
  exact ⟨⟨bytes, hbytes, hupper⟩, by decide⟩

end CkbDilithium.Sdk
