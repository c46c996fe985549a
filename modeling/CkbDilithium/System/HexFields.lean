import CkbDilithium.Address.Canonical
import CkbDilithium.Sdk.Transfer

/-!
# Hex fields with other characters

`hexToBytes` checks the `0x` and the parity of what follows it, and leaves the rest to a decoder that stops at the first
pair that is not two digits. A string of digits is read as a whole; any other string that passes the two checks
(`BadDigits`) is cut off without an error. The address of a script and the capacity of its cell inherit exactly this:
they are about the script as written when its hex fields have only digits.
-/

namespace CkbDilithium.Sdk

open Js

/-! ### Reading a hex string -/

/-- `0x` and an even number of characters that are not all digits. -/
def BadDigits (s : JsString) : Prop := ∃ hex, s = lit "0x" ++ hex ∧ hex.length % 2 = 0 ∧ ¬ HexString hex

/-- The number of bytes written in a hex string, two characters each. -/
def writtenBytes (s : JsString) : Nat := (s.length - 2) / 2

/-- The string is rejected, or read as all the bytes written in it. -/
def RejectsOrReads (s : JsString) : Prop :=
  (∃ error, hexToBytes s = .error error) ∨
  ∃ bytes, hexToBytes s = .ok bytes ∧ bytes.length = writtenBytes s ∧ bytesToHex bytes = toLowerCase s

theorem isSome_digitVal?_iff (c : UInt16) : (digitVal? 16 c).isSome ↔
    (48 ≤ c.toNat ∧ c.toNat ≤ 57) ∨ (97 ≤ c.toNat ∧ c.toNat ≤ 102) ∨ (65 ≤ c.toNat ∧ c.toNat ≤ 70) := by
  simp only [digitVal?]
  split_ifs <;> simp <;> omega

theorem hexString_of_toLowerCase {s : JsString} (h : HexString (toLowerCase s)) : HexString s := by
  intro c hc
  have hlower := h (lowerUnit c) (List.mem_map_of_mem hc)
  rw [isSome_digitVal?_iff, lowerUnit_toNat] at hlower
  rw [isSome_digitVal?_iff]
  split_ifs at hlower <;> omega

theorem toLowerCase_bytesToHex (bytes : Bytes) : toLowerCase (bytesToHex bytes) = bytesToHex bytes := by
  have hdigits := hexDigits_bufferFromHex (hexString_hexDigits bytes) (by simp)
  rw [bufferFromHex_hexDigits] at hdigits
  have hprefix : toLowerCase (lit "0x") = lit "0x" := by decide
  rw [bytesToHex, toLowerCase_append, ← hdigits, hprefix]

/-- At most the bytes written are read; all of them only from digits. -/
theorem bufferFromHex_length_le (hex : JsString) : (bufferFromHex hex).length ≤ hex.length / 2 := by
  induction hex using List.twoStepInduction with
  | nil => simp [bufferFromHex]
  | singleton a => simp [bufferFromHex]
  | cons_cons a b rest ih _ =>
    rw [bufferFromHex]
    split
    · simp only [List.length_cons]
      omega
    · simp

theorem hexString_of_bufferFromHex_length {hex : JsString} (heven : hex.length % 2 = 0)
    (h : (bufferFromHex hex).length = hex.length / 2) : HexString hex := by
  induction hex using List.twoStepInduction with
  | nil => simp [HexString]
  | singleton a => simp at heven
  | cons_cons a b rest ih _ =>
    rw [List.length_cons, List.length_cons] at heven
    rw [bufferFromHex] at h
    split at h
    · rename_i x y hx hy
      simp only [List.length_cons] at h
      have hrest := ih (by omega) (by omega)
      intro c hc
      rcases List.mem_cons.1 hc with rfl | hc
      · simp [hx]
      · rcases List.mem_cons.1 hc with rfl | hc
        · simp [hy]
        · exact hrest c hc
    · -- a pair that is not two digits ends the reading with characters left
      simp only [List.length_nil, List.length_cons] at h
      omega

section Reading

variable {s : JsString} {bytes : Bytes}

theorem badDigits_iff {hex : JsString} (heven : hex.length % 2 = 0) :
    BadDigits (lit "0x" ++ hex) ↔ ¬ HexString hex := by
  constructor
  · intro h
    obtain ⟨hex', heq, -, hnot⟩ := h
    rwa [List.append_cancel_left heq]
  · intro hnot
    exact ⟨hex, rfl, heven, hnot⟩

/-- A string that is read prints back in lower case when it has only digits. -/
theorem bytesToHex_hexToBytes_iff (h : hexToBytes s = .ok bytes) :
    bytesToHex bytes = toLowerCase s ↔ ¬ BadDigits s := by
  obtain ⟨hex, rfl, heven, rfl⟩ := hexToBytes_eq_ok.1 h
  have hprefix : toLowerCase (lit "0x") = lit "0x" := by decide
  rw [badDigits_iff heven, not_not, bytesToHex, toLowerCase_append, hprefix, List.append_cancel_left_eq]
  constructor
  · intro hprint
    apply hexString_of_toLowerCase
    rw [← hprint]
    exact hexString_hexDigits _
  · intro hdigits
    exact hexDigits_bufferFromHex hdigits heven

theorem hexToBytes_length_le (h : hexToBytes s = .ok bytes) : bytes.length ≤ writtenBytes s := by
  obtain ⟨hex, rfl, -, rfl⟩ := hexToBytes_eq_ok.1 h
  simpa [writtenBytes] using bufferFromHex_length_le hex

theorem hexToBytes_length_iff (h : hexToBytes s = .ok bytes) : bytes.length = writtenBytes s ↔ ¬ BadDigits s := by
  obtain ⟨hex, rfl, heven, rfl⟩ := hexToBytes_eq_ok.1 h
  have hwritten : writtenBytes (lit "0x" ++ hex) = hex.length / 2 := by simp [writtenBytes]
  rw [badDigits_iff heven, not_not, hwritten]
  constructor
  · intro hlen
    exact hexString_of_bufferFromHex_length heven hlen
  · intro hdigits
    exact bufferFromHex_length hdigits heven

theorem rejectsOrReads_iff (s : JsString) : RejectsOrReads s ↔ ¬ BadDigits s := by
  constructor
  · intro h hbad
    rcases h with ⟨error, herror⟩ | ⟨bytes, hread, -, hprint⟩
    · obtain ⟨hex, hs, heven, -⟩ := hbad
      have hread := hexToBytes_eq_ok.2 ⟨hex, hs, heven, rfl⟩
      rw [herror] at hread
      cases hread
    · exact (bytesToHex_hexToBytes_iff hread).1 hprint hbad
  · intro hgood
    rcases Result.ok_or_error (hexToBytes s) with ⟨bytes, hread⟩ | hthrows
    · exact Or.inr ⟨bytes, hread, (hexToBytes_length_iff hread).2 hgood, (bytesToHex_hexToBytes_iff hread).2 hgood⟩
    · exact Or.inl hthrows

end Reading

/-! ### Addresses -/

/-- The address gives back the code hash and the args of the script, up to the case of the digits. -/
def AddressKeepsFields (script : LockScript) (address : JsString) : Prop :=
  ∃ decoded, decodeCkbAddress address = .ok decoded ∧
    toLowerCase decoded.script.codeHash = toLowerCase script.codeHash ∧
    toLowerCase decoded.script.args = toLowerCase script.args

theorem addressKeepsFields_iff {script : LockScript} {network : Network} {address : JsString}
    (h : encodeCkbAddress script network = .ok address) :
    AddressKeepsFields script address ↔ ¬ BadDigits script.codeHash ∧ ¬ BadDigits script.args := by
  obtain ⟨codeHash, args, byte, hashType, hcode, -, hargs, -, -, hdecode⟩ := decodeCkbAddress_of_encode h
  rw [← bytesToHex_hexToBytes_iff hcode, ← bytesToHex_hexToBytes_iff hargs]
  constructor
  · intro hkeeps
    obtain ⟨decoded, hdecoded, hcodeHash, hargsHex⟩ := hkeeps
    obtain rfl := Result.ok_unique hdecode hdecoded
    rw [toLowerCase_bytesToHex] at hcodeHash hargsHex
    exact ⟨hcodeHash, hargsHex⟩
  · intro hsame
    refine ⟨_, hdecode, ?_, ?_⟩
    · rw [toLowerCase_bytesToHex, hsame.1]
    · rw [toLowerCase_bytesToHex, hsame.2]

/-! ### Capacities -/

/-- The bytes a cell with these fields occupies as they are written, in shannons. -/
def writtenCapacity (lock : LockScript) (dataHex : JsString) (type : Option LockScript) : Int :=
  (8 + (33 + writtenBytes lock.args) + (type.map fun script => 33 + writtenBytes script.args).getD 0 +
    writtenBytes dataHex : Nat) * 10 ^ 8

theorem minimumCellCapacity_iff {lock : LockScript} {dataHex : JsString} {type : Option LockScript} {capacity : Int}
    (h : minimumCellCapacity lock dataHex type = .ok capacity) :
    capacity = writtenCapacity lock dataHex type ↔
      ¬ BadDigits lock.args ∧ (∀ script ∈ type, ¬ BadDigits script.args) ∧ ¬ BadDigits dataHex := by
  cases type with
  | none =>
    simp only [minimumCellCapacity, Result.bind_eq_ok, Result.pure_eq_ok] at h
    obtain ⟨args, hargs, _, rfl, data, hdata, rfl⟩ := h
    have hargsLe := hexToBytes_length_le hargs
    have hdataLe := hexToBytes_length_le hdata
    rw [← hexToBytes_length_iff hargs, ← hexToBytes_length_iff hdata, writtenCapacity, cellOutputBase, scriptSizeBase,
      shannonsPerCkb]
    simp
    omega
  | some script =>
    simp only [minimumCellCapacity, Result.bind_eq_ok, Result.pure_eq_ok] at h
    obtain ⟨args, hargs, typeArgs, htypeArgs, _, rfl, data, hdata, rfl⟩ := h
    have hargsLe := hexToBytes_length_le hargs
    have htypeLe := hexToBytes_length_le htypeArgs
    have hdataLe := hexToBytes_length_le hdata
    have htype : (∀ script' ∈ some script, ¬ BadDigits script'.args) ↔ ¬ BadDigits script.args := by simp
    rw [htype, ← hexToBytes_length_iff hargs, ← hexToBytes_length_iff htypeArgs, ← hexToBytes_length_iff hdata,
      writtenCapacity, cellOutputBase, scriptSizeBase, shannonsPerCkb]
    simp
    omega

/-- **When hex is read as it is written.** A string is rejected or read completely unless it has `0x`, an even number of
characters after it and among them one that is no digit. An address gives back the fields of its script,
and a minimum capacity counts every byte written, exactly when none of the hex fields is such a string. -/
theorem hexToBytes_reads_written (s : JsString) (lock : LockScript) (network : Network) (dataHex : JsString)
    (type : Option LockScript) :
    (RejectsOrReads s ↔ ¬ BadDigits s) ∧
    (∀ address, encodeCkbAddress lock network = .ok address →
      (AddressKeepsFields lock address ↔ ¬ BadDigits lock.codeHash ∧ ¬ BadDigits lock.args)) ∧
    ∀ capacity, minimumCellCapacity lock dataHex type = .ok capacity →
      (capacity = writtenCapacity lock dataHex type ↔
        ¬ BadDigits lock.args ∧ (∀ script ∈ type, ¬ BadDigits script.args) ∧ ¬ BadDigits dataHex) := by
  refine ⟨rejectsOrReads_iff s, ?_, ?_⟩
  · intro address h
    exact addressKeepsFields_iff h
  · intro capacity h
    exact minimumCellCapacity_iff h

/-- A script whose code hash is 32 zero bytes. -/
def zeroHashScript (args : JsString) : LockScript where
  codeHash := bytesToHex (List.replicate 32 0)
  hashType := lit "data2"
  args := args

theorem zeroHashScript_address {args : JsString} {bytes : Bytes} (h : hexToBytes args = .ok bytes) :
    ∃ address, encodeCkbAddress (zeroHashScript args) .testnet = .ok address :=
  encodeCkbAddress_returns .testnet (hexToBytes_bytesToHex (List.replicate 32 0)) (by simp [codeHashBytes]) h
    (HashTypeByte.version (n := 2) (by decide) (by decide)).hashTypeToByte_eq

theorem not_badDigits_bytesToHex (bytes : Bytes) : ¬ BadDigits (bytesToHex bytes) :=
  (bytesToHex_hexToBytes_iff (hexToBytes_bytesToHex bytes)).1 (toLowerCase_bytesToHex bytes).symm

/-- With args in digits the address gives back the fields. -/
theorem hexToBytes_reads_written_zeroHashScript :
    ∃ address, encodeCkbAddress (zeroHashScript (bytesToHex [1, 2])) .testnet = .ok address ∧
      AddressKeepsFields (zeroHashScript (bytesToHex [1, 2])) address := by
  obtain ⟨address, haddress⟩ := zeroHashScript_address (hexToBytes_bytesToHex [1, 2])
  have hfields := hexToBytes_reads_written [] (zeroHashScript (bytesToHex [1, 2])) .testnet [] none
  exact ⟨address, haddress,
    (hfields.2.1 address haddress).2 ⟨not_badDigits_bytesToHex _, not_badDigits_bytesToHex [1, 2]⟩⟩

/-- One byte is written, none is read: the address of the script is that of another lock, and its cell is one
byte short. -/
theorem hexToBytes_no_digits :
    hexToBytes (lit "0xzz") = .ok [] ∧ ¬ RejectsOrReads (lit "0xzz") ∧
    (∃ address, encodeCkbAddress (zeroHashScript (lit "0xzz")) .testnet = .ok address ∧
      ¬ AddressKeepsFields (zeroHashScript (lit "0xzz")) address) ∧
    minimumCellCapacity (zeroHashScript (lit "0xzz")) (lit "0x") none = .ok (41 * 10 ^ 8) ∧
    writtenCapacity (zeroHashScript (lit "0xzz")) (lit "0x") none = 42 * 10 ^ 8 := by
  have hread : hexToBytes (lit "0xzz") = .ok [] := by decide
  have hbad : BadDigits (lit "0xzz") := ⟨lit "zz", by decide, by decide, by decide⟩
  obtain ⟨address, haddress⟩ := zeroHashScript_address hread
  refine ⟨hread, fun h => (rejectsOrReads_iff _).1 h hbad, ⟨address, haddress, ?_⟩, by decide, by decide⟩
  intro hkeeps
  exact ((addressKeepsFields_iff haddress).1 hkeeps).2 hbad

end CkbDilithium.Sdk
