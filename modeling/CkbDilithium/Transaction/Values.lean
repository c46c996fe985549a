import CkbDilithium.Ckb.Schema
import CkbDilithium.Sdk.Serialize

/-!
# The field values of a transaction

What the hex strings of a transaction denote: byte strings, unsigned integers and hash types, as a
value of the on-chain schema. Well-formed strings have `0x` and digits, an even number of them for
bytes; two well-formed strings with the same value differ in letter case and leading zeros alone
(`canonicalHex_eq_of_value`, `canonicalQuantity_eq_of_value`).
-/

namespace CkbDilithium.Sdk

open Js

/-! ### Strings and their values -/

/-- The bytes a hex string denotes. -/
def hexValue (s : JsString) : Bytes := bufferFromHex (s.drop 2)

/-- The number a hex quantity denotes. -/
def quantityValue (s : JsString) : Nat := (parseDigitsFrom 16 0 (s.drop 2)).getD 0

/-- The byte a hash type denotes. -/
def hashTypeValue (s : JsString) : UInt8 :=
  if s = lit "data" then 0
  else if s = lit "type" then 1
  else UInt8.ofNat (2 * (parseDigits 10 (s.drop 4)).getD 0)

/-- `0x` and an even number of digits. -/
def IsHex (s : JsString) : Prop := ∃ hex, s = lit "0x" ++ hex ∧ HexString hex ∧ hex.length % 2 = 0

/-- `0x` and 64 digits. -/
def IsHash (s : JsString) : Prop := ∃ hex, s = lit "0x" ++ hex ∧ HexString hex ∧ hex.length = 64

/-- `0x` and digits of a number of the given width. -/
def IsQuantity (bits : Nat) (s : JsString) : Prop :=
  ∃ digits, s = lit "0x" ++ digits ∧ HexString digits ∧ quantityValue s < 2 ^ bits

theorem drop_hexPrefix (hex : JsString) : (lit "0x" ++ hex).drop 2 = hex := by simp

/-- The part after `0x` is the only candidate. -/
theorem exists_hexPrefix_iff {s : JsString} {P : JsString → Prop} :
    (∃ hex, s = lit "0x" ++ hex ∧ P hex) ↔ s = lit "0x" ++ s.drop 2 ∧ P (s.drop 2) := by
  constructor
  · intro h
    obtain ⟨hex, rfl, hhex⟩ := h
    rw [drop_hexPrefix]
    exact ⟨rfl, hhex⟩
  · intro h
    exact ⟨s.drop 2, h⟩

instance (s : JsString) : Decidable (IsHex s) := decidable_of_iff _ exists_hexPrefix_iff.symm

instance (s : JsString) : Decidable (IsHash s) := decidable_of_iff _ exists_hexPrefix_iff.symm

instance (bits : Nat) (s : JsString) : Decidable (IsQuantity bits s) :=
  decidable_of_iff _ exists_hexPrefix_iff.symm

theorem IsHash.isHex {s : JsString} (h : IsHash s) : IsHex s := by
  obtain ⟨hex, hs, hhex, hlen⟩ := h
  exact ⟨hex, hs, hhex, by omega⟩

theorem hexToBytes_of_isHex {s : JsString} (h : IsHex s) : hexToBytes s = .ok (hexValue s) := by
  obtain ⟨hex, rfl, -, heven⟩ := h
  exact hexToBytes_eq_ok.2 ⟨hex, rfl, heven, by rw [hexValue, drop_hexPrefix]⟩

theorem hexValue_length {s : JsString} (h : IsHash s) : (hexValue s).length = 32 := by
  obtain ⟨hex, rfl, hhex, hlen⟩ := h
  rw [hexValue, drop_hexPrefix, bufferFromHex_length hhex (by omega), hlen]

theorem hexToBigInt_of_isQuantity {bits : Nat} {s : JsString} (h : IsQuantity bits s) :
    hexToBigInt s = .ok (quantityValue s : Int) := by
  obtain ⟨digits, rfl, hdigits, -⟩ := h
  obtain ⟨n, hn, -, hread⟩ := hexToBigInt_of_hexString hdigits
  rw [hread, quantityValue, drop_hexPrefix, hn, Option.getD_some]

theorem quantityToLeBytes_of_isQuantity {s : JsString} (h : IsQuantity 32 s) :
    quantityToLeBytes s = .ok (leBytes 4 (quantityValue s)) := by
  have hlt : quantityValue s < 2 ^ 32 := h.choose_spec.2.2
  rw [quantityToLeBytes, hexToBigInt_of_isQuantity h, Result.ok_bind, bigIntToNumber_natCast (by omega)]
  exact u32ToLeBytes_ofNat.2 ⟨hlt, rfl⟩

theorem u64ToLeBytes_of_isQuantity {s : JsString} (h : IsQuantity 64 s) :
    (hexToBigInt s >>= u64ToLeBytes) = .ok (leBytes 8 (quantityValue s)) := by
  have hlt : quantityValue s < 2 ^ 64 := h.choose_spec.2.2
  rw [hexToBigInt_of_isQuantity h, Result.ok_bind, u64ToLeBytes_eq_ok]
  exact ⟨by omega, by exact_mod_cast hlt, by rw [Int.toNat_natCast]⟩

theorem HashTypeByte.hashTypeValue_eq {s : JsString} {byte : Nat} (h : HashTypeByte s byte) :
    hashTypeValue s = UInt8.ofNat byte := by
  cases h with
  | data => rfl
  | type => rfl
  | @version n hlow hhigh =>
    obtain ⟨hdata, htype⟩ := version_ne_literals n (by omega)
    have hdrop : (lit "data" ++ toRadix 10 n).drop 4 = toRadix 10 n := List.drop_left' rfl
    rw [hashTypeValue, if_neg hdata, if_neg htype, hdrop, parseDigits_toRadix_ten, Option.getD_some]

/-! ### Equality up to letter case and leading zeros -/

def canonicalHex (s : JsString) : JsString := toLowerCase s

def canonicalQuantity (s : JsString) : JsString :=
  toLowerCase (s.take 2 ++ (s.drop 2).dropWhile (· == unit '0'))

theorem canonicalHex_eq {s : JsString} (h : IsHex s) : canonicalHex s = bytesToHex (hexValue s) := by
  obtain ⟨hex, rfl, hhex, heven⟩ := h
  rw [canonicalHex, toLowerCase_append, bytesToHex, hexValue, drop_hexPrefix, hexDigits_bufferFromHex hhex heven]
  rfl

theorem canonicalHex_eq_of_value {s t : JsString} (hs : IsHex s) (ht : IsHex t)
    (h : hexValue s = hexValue t) : canonicalHex s = canonicalHex t := by
  rw [canonicalHex_eq hs, canonicalHex_eq ht, h]

/-- The digits without leading zeros are determined by the value. -/
theorem canonicalQuantity_eq {bits : Nat} {s : JsString} (h : IsQuantity bits s) :
    canonicalQuantity s =
      lit "0x" ++ if quantityValue s = 0 then [] else toRadix 16 (quantityValue s) := by
  obtain ⟨digits, rfl, hdigits, -⟩ := h
  obtain ⟨n, hn⟩ := parseDigitsFrom_of_hexString hdigits 0
  have hvalue : quantityValue (lit "0x" ++ digits) = n := by
    rw [quantityValue, drop_hexPrefix, hn, Option.getD_some]
  have htake : (lit "0x" ++ digits).take 2 = lit "0x" := List.take_left' rfl
  rw [hvalue, canonicalQuantity, drop_hexPrefix, htake, toLowerCase_append]
  rw [← parseDigitsFrom_dropWhile_zero] at hn
  cases hstrip : digits.dropWhile (· == unit '0') with
  | nil =>
    rw [hstrip, parseDigitsFrom, Option.some.injEq] at hn
    rw [if_pos hn.symm]
    rfl
  | cons c t =>
    rw [hstrip] at hn
    obtain ⟨hprint, hpos⟩ := toRadix_parseDigitsFrom (head_dropWhile_zero hstrip) hn
    rw [if_neg (by omega), hprint]
    rfl

theorem canonicalQuantity_eq_of_value {bits : Nat} {s t : JsString} (hs : IsQuantity bits s)
    (ht : IsQuantity bits t) (h : quantityValue s = quantityValue t) :
    canonicalQuantity s = canonicalQuantity t := by
  rw [canonicalQuantity_eq hs, canonicalQuantity_eq ht, h]

theorem hashType_eq_of_value {s t : JsString} (hs : CanonicalHashType s) (ht : CanonicalHashType t)
    (h : hashTypeValue s = hashTypeValue t) : s = t := by
  obtain ⟨byte, hbyte⟩ := hs
  obtain ⟨byte', hbyte'⟩ := ht
  rw [hbyte.hashTypeValue_eq, hbyte'.hashTypeValue_eq] at h
  have hval := congrArg UInt8.toNat h
  have hlt := hbyte.byte_lt
  have hlt' := hbyte'.byte_lt
  rw [UInt8.toNat_ofNat', UInt8.toNat_ofNat'] at hval
  obtain rfl : byte = byte' := by omega
  exact hbyte.unique hbyte'

/-! ### Transactions -/

def LockScript.value (script : LockScript) : Ckb.Script :=
  ⟨hexValue script.codeHash, hashTypeValue script.hashType, hexValue script.args⟩

def OutPoint.value (outPoint : OutPoint) : Ckb.OutPoint :=
  ⟨hexValue outPoint.txHash, quantityValue outPoint.index⟩

def DepType.value : DepType → UInt8
  | .code => 0
  | .depGroup => 1

def CellDep.value (cellDep : CellDep) : Ckb.CellDep := ⟨cellDep.outPoint.value, cellDep.depType.value⟩

def TransactionInput.value (input : TransactionInput) : Ckb.CellInput :=
  ⟨quantityValue input.since, input.previousOutput.value⟩

def CellOutput.value (output : CellOutput) : Ckb.CellOutput :=
  ⟨quantityValue output.capacity, output.lock.value, output.type.map LockScript.value⟩

def RawTransaction.value (tx : RawTransaction) : Ckb.RawTransaction where
  version := quantityValue tx.version
  cellDeps := tx.cellDeps.map CellDep.value
  headerDeps := tx.headerDeps.map hexValue
  inputs := tx.inputs.map TransactionInput.value
  outputs := tx.outputs.map CellOutput.value
  outputsData := tx.outputsData.map hexValue

/-! ### Well-formed transactions -/

structure LockScript.WellFormed (script : LockScript) : Prop where
  codeHash : IsHash script.codeHash
  hashType : CanonicalHashType script.hashType
  args : IsHex script.args

structure OutPoint.WellFormed (outPoint : OutPoint) : Prop where
  txHash : IsHash outPoint.txHash
  index : IsQuantity 32 outPoint.index

structure TransactionInput.WellFormed (input : TransactionInput) : Prop where
  since : IsQuantity 64 input.since
  previousOutput : input.previousOutput.WellFormed

structure CellOutput.WellFormed (output : CellOutput) : Prop where
  capacity : IsQuantity 64 output.capacity
  lock : output.lock.WellFormed
  type : ∀ script ∈ output.type, script.WellFormed

structure RawTransaction.WellFormed (tx : RawTransaction) : Prop where
  version : IsQuantity 32 tx.version
  cellDeps : ∀ cellDep ∈ tx.cellDeps, cellDep.outPoint.WellFormed
  headerDeps : ∀ hash ∈ tx.headerDeps, IsHash hash
  inputs : ∀ input ∈ tx.inputs, input.WellFormed
  outputs : ∀ output ∈ tx.outputs, output.WellFormed
  outputsData : ∀ data ∈ tx.outputsData, IsHex data

/-! ### Canonical text -/

def LockScript.canonical (script : LockScript) : LockScript :=
  ⟨canonicalHex script.codeHash, script.hashType, canonicalHex script.args⟩

def OutPoint.canonical (outPoint : OutPoint) : OutPoint :=
  ⟨canonicalHex outPoint.txHash, canonicalQuantity outPoint.index⟩

def CellDep.canonical (cellDep : CellDep) : CellDep := ⟨cellDep.outPoint.canonical, cellDep.depType⟩

def TransactionInput.canonical (input : TransactionInput) : TransactionInput :=
  ⟨input.previousOutput.canonical, canonicalQuantity input.since⟩

def CellOutput.canonical (output : CellOutput) : CellOutput :=
  ⟨canonicalQuantity output.capacity, output.lock.canonical, output.type.map LockScript.canonical⟩

/-- The transaction in lower case and without leading zeros in its quantities. -/
def RawTransaction.canonical (tx : RawTransaction) : RawTransaction where
  version := canonicalQuantity tx.version
  cellDeps := tx.cellDeps.map CellDep.canonical
  headerDeps := tx.headerDeps.map canonicalHex
  inputs := tx.inputs.map TransactionInput.canonical
  outputs := tx.outputs.map CellOutput.canonical
  outputsData := tx.outputsData.map canonicalHex

theorem LockScript.canonical_eq_of_value {s t : LockScript} (hs : s.WellFormed) (ht : t.WellFormed)
    (h : s.value = t.value) : s.canonical = t.canonical := by
  obtain ⟨hcode, htype, hargs⟩ := Ckb.Script.mk.inj h
  rw [LockScript.canonical, LockScript.canonical,
    canonicalHex_eq_of_value hs.codeHash.isHex ht.codeHash.isHex hcode,
    hashType_eq_of_value hs.hashType ht.hashType htype, canonicalHex_eq_of_value hs.args ht.args hargs]

theorem OutPoint.canonical_eq_of_value {s t : OutPoint} (hs : s.WellFormed) (ht : t.WellFormed)
    (h : s.value = t.value) : s.canonical = t.canonical := by
  obtain ⟨hhash, hindex⟩ := Ckb.OutPoint.mk.inj h
  rw [OutPoint.canonical, OutPoint.canonical,
    canonicalHex_eq_of_value hs.txHash.isHex ht.txHash.isHex hhash,
    canonicalQuantity_eq_of_value hs.index ht.index hindex]

theorem CellDep.canonical_eq_of_value {s t : CellDep} (hs : s.outPoint.WellFormed) (ht : t.outPoint.WellFormed)
    (h : s.value = t.value) : s.canonical = t.canonical := by
  obtain ⟨hpoint, hdep⟩ := Ckb.CellDep.mk.inj h
  have hinj : ∀ d e : DepType, d.value = e.value → d = e := by
    intro d e
    cases d <;> cases e <;> decide
  rw [CellDep.canonical, CellDep.canonical, OutPoint.canonical_eq_of_value hs ht hpoint, hinj _ _ hdep]

theorem TransactionInput.canonical_eq_of_value {s t : TransactionInput} (hs : s.WellFormed) (ht : t.WellFormed)
    (h : s.value = t.value) : s.canonical = t.canonical := by
  obtain ⟨hsince, hpoint⟩ := Ckb.CellInput.mk.inj h
  rw [TransactionInput.canonical, TransactionInput.canonical,
    OutPoint.canonical_eq_of_value hs.previousOutput ht.previousOutput hpoint,
    canonicalQuantity_eq_of_value hs.since ht.since hsince]

theorem CellOutput.canonical_eq_of_value {s t : CellOutput} (hs : s.WellFormed) (ht : t.WellFormed)
    (h : s.value = t.value) : s.canonical = t.canonical := by
  obtain ⟨hcapacity, hlock, htype⟩ := Ckb.CellOutput.mk.inj h
  have htypes : s.type.map LockScript.canonical = t.type.map LockScript.canonical := by
    have hst := hs.type
    have htt := ht.type
    cases hsome : s.type with
    | none =>
      rw [hsome, Option.map_none, eq_comm, Option.map_eq_none_iff] at htype
      rw [htype]
    | some script =>
      rw [hsome, Option.map_some, eq_comm, Option.map_eq_some_iff] at htype
      obtain ⟨script', hscript', hvalue⟩ := htype
      rw [hscript', Option.map_some, Option.map_some,
        LockScript.canonical_eq_of_value (hst script hsome) (htt script' hscript') hvalue.symm]
  rw [CellOutput.canonical, CellOutput.canonical,
    canonicalQuantity_eq_of_value hs.capacity ht.capacity hcapacity,
    LockScript.canonical_eq_of_value hs.lock ht.lock hlock, htypes]

/-- Lists with equal values have equal canonical forms when their items do. -/
theorem map_eq_map_of_value {α β γ : Type} {value : α → β} {canonical : α → γ} {l m : List α}
    (hinj : ∀ x ∈ l, ∀ y ∈ m, value x = value y → canonical x = canonical y)
    (h : l.map value = m.map value) : l.map canonical = m.map canonical := by
  induction l generalizing m with
  | nil =>
    rw [List.map_nil, eq_comm, List.map_eq_nil_iff] at h
    rw [h]
  | cons x l ih =>
    obtain ⟨y, m, rfl, hy, hm⟩ := List.map_eq_cons_iff.1 h.symm
    rw [List.map_cons, List.map_cons, hinj x (by simp) y (by simp) hy.symm,
      ih (fun x hx y hy => hinj x (by simp [hx]) y (by simp [hy])) hm.symm]

/-- **Well-formed transactions with the same values are equal up to letter case and leading zeros.** -/
theorem RawTransaction.canonical_eq_of_value {s t : RawTransaction} (hs : s.WellFormed) (ht : t.WellFormed)
    (h : s.value = t.value) : s.canonical = t.canonical := by
  obtain ⟨hversion, hdeps, hheaders, hinputs, houtputs, hdata⟩ := Ckb.RawTransaction.mk.inj h
  rw [RawTransaction.canonical, RawTransaction.canonical,
    canonicalQuantity_eq_of_value hs.version ht.version hversion,
    map_eq_map_of_value (fun x hx y hy => CellDep.canonical_eq_of_value (hs.cellDeps x hx) (ht.cellDeps y hy)) hdeps,
    map_eq_map_of_value (fun x hx y hy =>
      canonicalHex_eq_of_value (hs.headerDeps x hx).isHex (ht.headerDeps y hy).isHex) hheaders,
    map_eq_map_of_value (fun x hx y hy =>
      TransactionInput.canonical_eq_of_value (hs.inputs x hx) (ht.inputs y hy)) hinputs,
    map_eq_map_of_value (fun x hx y hy =>
      CellOutput.canonical_eq_of_value (hs.outputs x hx) (ht.outputs y hy)) houtputs,
    map_eq_map_of_value (fun x hx y hy =>
      canonicalHex_eq_of_value (hs.outputsData x hx) (ht.outputsData y hy)) hdata]

end CkbDilithium.Sdk
