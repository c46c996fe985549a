import CkbDilithium.Sdk.Util

/-!
# Hash types

The two encoders of hash types, `hashTypeToByte` of `sdk/src/address.ts` and `hashTypeByte` of
`sdk/src/wallet.ts`, and the decoder `byteToHashType`. On canonical hash types, `data`, `type` and
`data` followed by a decimal version from 1 to 127, both encoders give the byte that decodes to the
hash type again. On other strings they differ by one test (`hashTypeToByte_eq`), and every byte they
give decodes (`exists_hashTypeByte`).
-/

namespace CkbDilithium.Sdk

open Js

def hashTypeToByte (hashType : JsString) : Js Nat :=
  if hashType = lit "data" then pure 0
  else if hashType = lit "type" then pure 1
  else if ¬ (lit "data").isPrefixOf hashType then raise (lit "unsupported hash type: " ++ hashType)
  else
    let version := stringToNumber (hashType.drop 4)
    if ¬ version.isInteger ∨ version.toInt < 1 ∨ version.toInt > 127 then
      raise (lit "unsupported hash type: " ++ hashType)
    else pure (version.toInt.toNat <<< 1)

def byteToHashType (value : Nat) : Js JsString :=
  if value = 0 then pure (lit "data")
  else if value = 1 then pure (lit "type")
  else if value > 1 ∧ value ≤ 254 ∧ value % 2 = 0 then pure (lit "data" ++ toRadix 10 (value >>> 1))
  else raise (lit "unsupported hash type byte: " ++ toRadix 10 value)

/-- The encoder of the transaction serializer: no test of the first four characters. -/
def hashTypeByte (hashType : JsString) : Js Nat :=
  if hashType = lit "data" then pure 0
  else if hashType = lit "type" then pure 1
  else
    let version := stringToNumber (hashType.drop 4)
    if ¬ version.isInteger ∨ version.toInt < 1 ∨ version.toInt > 127 then
      raise (lit "unsupported hash type: " ++ hashType)
    else pure (version.toInt.toNat <<< 1)

/-! ### Canonical hash types -/

/-- The byte of a canonical hash type: the three forms and their bytes. -/
inductive HashTypeByte : JsString → Nat → Prop where
  | data : HashTypeByte (lit "data") 0
  | type : HashTypeByte (lit "type") 1
  | version {n : Nat} (hlow : 1 ≤ n) (hhigh : n ≤ 127) : HashTypeByte (lit "data" ++ toRadix 10 n) (2 * n)

/-- `data`, `type` or `data` and a decimal version from 1 to 127. -/
def CanonicalHashType (hashType : JsString) : Prop := ∃ byte, HashTypeByte hashType byte

/-- Small decimal numerals are read as their value. -/
theorem stringToNumber_toRadix : ∀ n < 128, stringToNumber (toRadix 10 n) = JsNumber.ofNat n := by
  decide +kernel

theorem version_ne_literals : ∀ n < 128, lit "data" ++ toRadix 10 n ≠ lit "data" ∧
    lit "data" ++ toRadix 10 n ≠ lit "type" := by decide +kernel

theorem HashTypeByte.byte_lt {hashType : JsString} {byte : Nat} (h : HashTypeByte hashType byte) :
    byte < 256 := by
  cases h <;> omega

/-- Both encoders read the version after `data`. -/
theorem HashTypeByte.hashTypeByte_eq {hashType : JsString} {byte : Nat} (h : HashTypeByte hashType byte) :
    hashTypeByte hashType = .ok byte := by
  cases h with
  | data => rfl
  | type => rfl
  | @version n hlow hhigh =>
    obtain ⟨hdata, htype⟩ := version_ne_literals n (by omega)
    have hdrop : (lit "data" ++ toRadix 10 n).drop 4 = toRadix 10 n := List.drop_left' (by decide)
    simp only [hashTypeByte, hdata, htype, if_false, hdrop, stringToNumber_toRadix n (by omega),
      JsNumber.isInteger_ofNat, JsNumber.toInt_ofNat, Int.toNat_natCast, Nat.shiftLeft_eq]
    rw [if_neg (by simp; omega), pow_one, Nat.mul_comm]
    rfl

theorem HashTypeByte.hashTypeToByte_eq {hashType : JsString} {byte : Nat} (h : HashTypeByte hashType byte) :
    hashTypeToByte hashType = .ok byte := by
  have hbyte := h.hashTypeByte_eq
  cases h with
  | data => rfl
  | type => rfl
  | @version n hlow hhigh =>
    obtain ⟨hdata, htype⟩ := version_ne_literals n (by omega)
    have hprefix : (lit "data").isPrefixOf (lit "data" ++ toRadix 10 n) = true := by
      rw [List.isPrefixOf_iff_prefix]
      exact List.prefix_append ..
    simp only [hashTypeByte, hdata, htype, if_false] at hbyte
    simp only [hashTypeToByte, hdata, htype, hprefix, not_true, if_false]
    exact hbyte

/-- The decoder gives exactly the canonical hash types. -/
theorem byteToHashType_eq_ok {hashType : JsString} {byte : Nat} :
    byteToHashType byte = .ok hashType ↔ HashTypeByte hashType byte := by
  constructor
  · intro h
    unfold byteToHashType at h
    split_ifs at h with h0 h1 heven
    · obtain rfl := Result.pure_eq_ok.1 h
      rw [h0]
      exact .data
    · obtain rfl := Result.pure_eq_ok.1 h
      rw [h1]
      exact .type
    · obtain rfl := Result.pure_eq_ok.1 h
      have hhalf : byte >>> 1 = byte / 2 := Nat.shiftRight_eq_div_pow byte 1
      have hbyte : byte = 2 * (byte / 2) := by omega
      rw [hhalf]
      nth_rewrite 2 [hbyte]
      exact .version (by omega) (by omega)
    · exact absurd h raise_ne_ok
  · intro h
    cases h with
    | data => rfl
    | type => rfl
    | @version n hlow hhigh =>
      have hhalf : (2 * n) >>> 1 = n := by rw [Nat.shiftRight_eq_div_pow]; omega
      rw [byteToHashType, if_neg (by omega), if_neg (by omega), if_pos (by omega), hhalf]
      rfl

/-! ### All strings -/

/-- The string begins with `data`, or is `type`. -/
def DataOrType (hashType : JsString) : Prop := hashType = lit "type" ∨ (lit "data").isPrefixOf hashType = true

instance (hashType : JsString) : Decidable (DataOrType hashType) :=
  inferInstanceAs (Decidable (hashType = lit "type" ∨ (lit "data").isPrefixOf hashType = true))

/-- `Number(hashType.slice(4))` is an integer from 1 to 127. -/
def HasVersion (hashType : JsString) : Prop :=
  (stringToNumber (hashType.drop 4)).isInteger = true ∧ 1 ≤ (stringToNumber (hashType.drop 4)).toInt ∧
    (stringToNumber (hashType.drop 4)).toInt ≤ 127

/-- The address codec is the serializer's encoder behind one more test. -/
theorem hashTypeToByte_eq (hashType : JsString) : hashTypeToByte hashType =
    if DataOrType hashType then hashTypeByte hashType else raise (lit "unsupported hash type: " ++ hashType) := by
  have hdata : (lit "data").isPrefixOf (lit "data") = true := by decide
  by_cases h0 : hashType = lit "data"
  · simp [hashTypeToByte, hashTypeByte, DataOrType, h0, hdata]
  · by_cases h1 : hashType = lit "type"
    · simp [hashTypeToByte, hashTypeByte, DataOrType, h1]
    · by_cases hstart : (lit "data").isPrefixOf hashType = true
      · simp [hashTypeToByte, hashTypeByte, DataOrType, h0, h1, hstart]
      · simp [hashTypeToByte, DataOrType, h0, h1, hstart]

/-- What the serializer's encoder accepts, and the bytes it gives. -/
theorem hashTypeByte_eq_ok {hashType : JsString} {byte : Nat} : hashTypeByte hashType = .ok byte ↔
    (hashType = lit "data" ∧ byte = 0) ∨ (hashType = lit "type" ∧ byte = 1) ∨
      (hashType ≠ lit "data" ∧ hashType ≠ lit "type" ∧ HasVersion hashType ∧
        byte = 2 * (stringToNumber (hashType.drop 4)).toInt.toNat) := by
  have hne : lit "type" ≠ lit "data" := by decide
  unfold hashTypeByte
  by_cases h0 : hashType = lit "data"
  · simp [h0, hne.symm, @eq_comm _ 0 byte]
  · by_cases h1 : hashType = lit "type"
    · simp [h1, hne, @eq_comm _ 1 byte]
    · have hguard : (¬ (stringToNumber (hashType.drop 4)).isInteger = true ∨
          (stringToNumber (hashType.drop 4)).toInt < 1 ∨ (stringToNumber (hashType.drop 4)).toInt > 127) ↔
          ¬ HasVersion hashType := by
        rw [HasVersion, not_and_or, not_and_or, not_le, not_le]
      simp only [h0, h1, if_false, hguard, ite_raise_eq_ok, not_not, Result.pure_eq_ok, Nat.shiftLeft_eq, pow_one,
        false_and, false_or, ne_eq, not_false_eq_true, true_and]
      rw [Nat.mul_comm, eq_comm (a := byte)]

/-- A byte that is given decodes. -/
theorem exists_hashTypeByte {hashType : JsString} {byte : Nat} (h : hashTypeByte hashType = .ok byte) :
    ∃ decoded, HashTypeByte decoded byte := by
  rcases hashTypeByte_eq_ok.1 h with ⟨-, rfl⟩ | ⟨-, rfl⟩ | ⟨-, -, hversion, rfl⟩
  · exact ⟨_, .data⟩
  · exact ⟨_, .type⟩
  · have hlow := hversion.2.1
    have hhigh := hversion.2.2
    exact ⟨_, .version (n := (stringToNumber (hashType.drop 4)).toInt.toNat) (by omega) (by omega)⟩

theorem hashTypeByte_of_hashTypeToByte {hashType : JsString} {byte : Nat}
    (h : hashTypeToByte hashType = .ok byte) : hashTypeByte hashType = .ok byte := by
  rw [hashTypeToByte_eq] at h
  by_cases hform : DataOrType hashType
  · rwa [if_pos hform] at h
  · rw [if_neg hform] at h
    exact absurd h raise_ne_ok

theorem hashTypeByte_lt {hashType : JsString} {byte : Nat} (h : hashTypeByte hashType = .ok byte) : byte < 256 := by
  obtain ⟨decoded, hdecoded⟩ := exists_hashTypeByte h
  exact hdecoded.byte_lt

/-- A canonical hash type is determined by its byte. -/
theorem HashTypeByte.unique {h h' : JsString} {byte : Nat} (hb : HashTypeByte h byte)
    (hb' : HashTypeByte h' byte) : h = h' := by
  have := (byteToHashType_eq_ok.2 hb).symm.trans (byteToHashType_eq_ok.2 hb')
  exact Except.ok.inj this

end CkbDilithium.Sdk
