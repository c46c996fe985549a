import CkbDilithium.Sdk.Types

/-!
# Byte, hex and quantity helpers

`sdk/src/util.ts`. `Buffer.from(hex, "hex")` decodes pairs of digits from the left and stops
silently at the first pair that is not two digits. The lemmas say what each helper does on a
successful run: `hexToBytes` undoes `bytesToHex`, a decoded string prints back in lower case when it
has only digits, and a non-negative bigint survives its hex quantity.
-/

namespace CkbDilithium.Sdk

open Js

def toBytes : ByteLike → Bytes
  | .uint8Array bytes => bytes
  | .arrayBuffer bytes => bytes
  | .arrayLike numbers => numbers.map JsNumber.toUint8

@[simp] theorem toBytes_uint8Array (bytes : Bytes) : toBytes (.uint8Array bytes) = bytes := rfl

/-! ### Hex strings -/

/-- `Buffer.from(bytes).toString("hex")`. -/
def hexDigits (bytes : Bytes) : JsString :=
  bytes.flatMap fun b => [digitUnit (b.toNat / 16), digitUnit (b.toNat % 16)]

def bytesToHex (bytes : Bytes) : JsString := lit "0x" ++ hexDigits bytes

/-- `Buffer.from(hex, "hex")`. -/
def bufferFromHex : JsString → Bytes
  | a :: b :: rest =>
    match digitVal? 16 a, digitVal? 16 b with
    | some x, some y => UInt8.ofNat (16 * x + y) :: bufferFromHex rest
    | _, _ => []
  | _ => []

def hexToBytes (value : JsString) : Js Bytes :=
  if ¬ (lit "0x").isPrefixOf value then raise (lit "hex value must start with 0x")
  else
    let hex := value.drop 2
    if hex.length % 2 ≠ 0 then raise (lit "hex value must have an even number of digits")
    else pure (bufferFromHex hex)

def concatBytes (chunks : List Bytes) : Bytes := chunks.flatten

/-! ### Fixed-width integers -/

def u32ToLeBytes (value : JsNumber) : Js Bytes :=
  if ¬ value.isInteger ∨ value.toInt < 0 ∨ value.toInt > 0xffffffff then
    raise (lit "value must fit in an unsigned 32-bit integer")
  else pure (leBytes 4 value.toInt.toNat)

def u64ToLeBytes (value : Int) : Js Bytes :=
  if value < 0 ∨ value > 0xffffffffffffffff then
    raise (lit "value must fit in an unsigned 64-bit integer")
  else pure (leBytes 8 value.toNat)

/-! ### Hex quantities -/

def normalizeHex (value : JsString) : Js JsString :=
  if ¬ (lit "0x").isPrefixOf value then raise (lit "hex value must start with 0x")
  else
    let digits := (value.drop 2).dropWhile (· == unit '0')
    pure (lit "0x" ++ if digits = [] then lit "0" else toLowerCase digits)

/-- `BigInt(value)` on a string. -/
def bigIntOfString (value : JsString) : Js Int :=
  match stringToBigInt value with
  | some v => pure v
  | none => throw (.syntaxError (lit "Cannot convert " ++ value ++ lit " to a BigInt"))

def hexToBigInt (value : JsString) : Js Int := do bigIntOfString (← normalizeHex value)

/-- `0x${value.toString(16)}` for a non-negative integer. -/
def hexQuantity (value : Int) : JsString := lit "0x" ++ toRadix 16 value.toNat

def bigIntToHexQuantity (value : Int) : Js JsString :=
  if value < 0 then raise (lit "bigint value must be non-negative")
  else pure (hexQuantity value)

def toHexQuantity : Numeric → Js JsString
  | .string value =>
    if (lit "0x").isPrefixOf value then normalizeHex value
    else do bigIntToHexQuantity (← bigIntOfString value)
  | .number value =>
    if ¬ value.isSafeInteger ∨ value.toInt < 0 then
      raise (lit "number value must be a non-negative safe integer")
    else pure (hexQuantity value.toInt)
  | .bigint value => bigIntToHexQuantity value

/-! ### Hex strings: reading and printing -/

@[simp] theorem lit_hexPrefix : lit "0x" = [48, 120] := by decide

theorem hexDigits_cons (b : UInt8) (bytes : Bytes) : hexDigits (b :: bytes) =
    digitUnit (b.toNat / 16) :: digitUnit (b.toNat % 16) :: hexDigits bytes := rfl

@[simp] theorem hexDigits_length (bytes : Bytes) : (hexDigits bytes).length = 2 * bytes.length := by
  induction bytes with
  | nil => rfl
  | cons b bytes ih =>
    simp only [hexDigits_cons, List.length_cons, ih]
    omega

theorem bufferFromHex_hexDigits (bytes : Bytes) : bufferFromHex (hexDigits bytes) = bytes := by
  induction bytes with
  | nil => rfl
  | cons b bytes ih =>
    have hb : b.toNat < 256 := b.toNat_lt
    rw [hexDigits_cons, bufferFromHex, digitVal?_digitUnit _ (by omega), digitVal?_digitUnit _ (by omega)]
    simp only [ih, List.cons.injEq, and_true]
    apply UInt8.toNat_inj.mp
    simp only [UInt8.toNat_ofNat']
    omega

@[simp] theorem hexToBytes_bytesToHex (bytes : Bytes) : hexToBytes (bytesToHex bytes) = .ok bytes := by
  simp only [hexToBytes, bytesToHex, lit_hexPrefix, List.cons_append, List.nil_append,
    List.drop_succ_cons, List.drop_zero, hexDigits_length, bufferFromHex_hexDigits]
  simp

/-- A successful `hexToBytes` decodes the digits after `0x`, of which there is an even number. -/
theorem hexToBytes_eq_ok {value : JsString} {bytes : Bytes} :
    hexToBytes value = .ok bytes ↔
      ∃ hex, value = lit "0x" ++ hex ∧ hex.length % 2 = 0 ∧ bytes = bufferFromHex hex := by
  simp only [hexToBytes, ite_raise_eq_ok, not_not, List.isPrefixOf_iff_prefix, Result.pure_eq_ok]
  constructor
  · intro h
    rcases h with ⟨⟨hex, rfl⟩, heven, rfl⟩
    exact ⟨hex, rfl, by simpa using heven, by simp⟩
  · intro h
    rcases h with ⟨hex, rfl, heven, rfl⟩
    exact ⟨⟨hex, rfl⟩, by simpa using heven, by simp⟩

/-- Only digits: nothing is cut off. -/
def HexString (s : JsString) : Prop := ∀ c ∈ s, (digitVal? 16 c).isSome

instance (s : JsString) : Decidable (HexString s) :=
  List.decidableBAll (fun c => (digitVal? 16 c).isSome) s

theorem hexString_hexDigits (bytes : Bytes) : HexString (hexDigits bytes) := by
  intro c hc
  obtain ⟨b, -, hb⟩ := List.mem_flatMap.1 hc
  have hlt := b.toNat_lt
  rcases List.mem_cons.1 hb with rfl | hb
  · exact isSome_digitUnit (by omega)
  · rw [List.mem_singleton.1 hb]
    exact isSome_digitUnit (by omega)

/-- An even number of digits comes in pairs. -/
@[elab_as_elim] theorem HexString.pairs_induction {motive : JsString → Prop} (nil : motive [])
    (pair : ∀ {a b : UInt16} {x y : Nat} {rest : JsString}, digitVal? 16 a = some x → digitVal? 16 b = some y →
      motive rest → motive (a :: b :: rest))
    {hex : JsString} (hhex : HexString hex) (heven : hex.length % 2 = 0) : motive hex := by
  induction hex using List.twoStepInduction with
  | nil => exact nil
  | singleton a => simp at heven
  | cons_cons a b rest ih _ =>
    obtain ⟨x, hx⟩ := Option.isSome_iff_exists.1 (hhex a (by simp))
    obtain ⟨y, hy⟩ := Option.isSome_iff_exists.1 (hhex b (by simp))
    have hrest : rest.length % 2 = 0 := by
      rw [List.length_cons, List.length_cons] at heven
      omega
    exact pair hx hy (ih (fun c hc => hhex c (by simp [hc])) hrest)

theorem bufferFromHex_length {hex : JsString} (hhex : HexString hex) (heven : hex.length % 2 = 0) :
    (bufferFromHex hex).length = hex.length / 2 := by
  refine HexString.pairs_induction rfl (fun hx hy ih => ?_) hhex heven
  simp only [bufferFromHex, hx, hy, List.length_cons, ih]
  omega

/-- A digit string prints back in lower case. -/
theorem hexDigits_bufferFromHex {hex : JsString} (hhex : HexString hex) (heven : hex.length % 2 = 0) :
    hexDigits (bufferFromHex hex) = toLowerCase hex := by
  refine HexString.pairs_induction rfl (fun {a b x y rest} hx hy ih => ?_) hhex heven
  have hxlt := digitVal?_lt hx
  have hylt := digitVal?_lt hy
  have hbyte : (UInt8.ofNat (16 * x + y)).toNat = 16 * x + y := by
    simp only [UInt8.toNat_ofNat']
    omega
  simp only [bufferFromHex, hx, hy, hexDigits_cons, ih, hbyte, toLowerCase_cons,
    lowerUnit_of_digitVal? hx, lowerUnit_of_digitVal? hy]
  rw [show (16 * x + y) / 16 = x by omega, show (16 * x + y) % 16 = y by omega]

/-! ### Integers -/

theorem u32ToLeBytes_eq_ok {value : JsNumber} {bytes : Bytes} (h : u32ToLeBytes value = .ok bytes) :
    bytes.length = 4 := by
  simp only [u32ToLeBytes, ite_raise_eq_ok, Result.pure_eq_ok] at h
  rw [← h.2, leBytes_length]

theorem u32ToLeBytes_ofNat {n : Nat} {bytes : Bytes} :
    u32ToLeBytes (JsNumber.ofNat n) = .ok bytes ↔ n < 2 ^ 32 ∧ bytes = leBytes 4 n := by
  simp only [u32ToLeBytes, ite_raise_eq_ok, Result.pure_eq_ok, JsNumber.isInteger_ofNat,
    JsNumber.toInt_ofNat, Int.toNat_natCast]
  constructor
  · intro h
    rcases h with ⟨h, rfl⟩
    exact ⟨by omega, rfl⟩
  · intro h
    rcases h with ⟨h, rfl⟩
    exact ⟨by simp; omega, rfl⟩

theorem u64ToLeBytes_eq_ok {value : Int} {bytes : Bytes} :
    u64ToLeBytes value = .ok bytes ↔ 0 ≤ value ∧ value < 2 ^ 64 ∧ bytes = leBytes 8 value.toNat := by
  simp only [u64ToLeBytes, ite_raise_eq_ok, Result.pure_eq_ok]
  constructor
  · intro h
    rcases h with ⟨h, rfl⟩
    exact ⟨by omega, by omega, rfl⟩
  · intro h
    rcases h with ⟨h0, h, rfl⟩
    exact ⟨by omega, rfl⟩

/-! ### Quantities -/

theorem parseDigitsFrom_of_hexString {s : JsString} (h : HexString s) (acc : Nat) :
    ∃ v, parseDigitsFrom 16 acc s = some v := by
  induction s generalizing acc with
  | nil => exact ⟨acc, rfl⟩
  | cons c s ih =>
    obtain ⟨d, hd⟩ := Option.isSome_iff_exists.1 (h c (by simp))
    obtain ⟨v, hv⟩ := ih (fun c hc => h c (by simp [hc])) (acc * 16 + d)
    exact ⟨v, by simp [parseDigitsFrom, hd, hv]⟩

/-- Leading zeros do not change a value. -/
theorem parseDigitsFrom_dropWhile_zero (s : JsString) :
    parseDigitsFrom 16 0 (s.dropWhile (· == unit '0')) = parseDigitsFrom 16 0 s := by
  induction s with
  | nil => rfl
  | cons c s ih =>
    by_cases hc : c = unit '0'
    · subst hc
      have hzero : digitVal? 16 (unit '0') = some 0 := by decide
      simp [parseDigitsFrom, hzero, ih]
    · rw [List.dropWhile_cons_of_neg (by simpa using hc)]

theorem head_dropWhile_zero {s t : JsString} {c : UInt16} (h : s.dropWhile (· == unit '0') = c :: t) :
    c ≠ 48 := by
  have hhead := List.head_dropWhile_not (· == unit '0') (l := s) (by simp [h])
  simp only [h, List.head_cons, beq_eq_false_iff_ne] at hhead
  exact hhead

theorem hexToBigInt_eq (value : JsString) :
    hexToBigInt value = normalizeHex value >>= bigIntOfString := rfl

/-- A quantity that is read is non-negative. -/
theorem hexToBigInt_nonneg {value : JsString} {v : Int} (h : hexToBigInt value = .ok v) : 0 ≤ v := by
  simp only [hexToBigInt_eq, Result.bind_eq_ok, normalizeHex, ite_raise_eq_ok, Result.pure_eq_ok,
    lit_hexPrefix] at h
  obtain ⟨_, ⟨-, rfl⟩, h⟩ := h
  simp only [bigIntOfString, List.cons_append, List.nil_append, stringToBigInt_hex] at h
  cases hparse : parseDigits 16 (trimEnd (if (value.drop 2).dropWhile (· == unit '0') = [] then lit "0"
      else toLowerCase ((value.drop 2).dropWhile (· == unit '0')))) with
  | none => simp only [hparse, Option.map_none, Result.throw_ne_ok] at h
  | some n =>
    simp only [hparse, Option.map_some, Result.pure_eq_ok] at h
    rw [← h]
    exact Int.natCast_nonneg n

theorem hexString_toRadix (n : Nat) : HexString (toRadix 16 n) := by
  induction n using Nat.strong_induction_on with
  | _ n ih =>
    by_cases h : n < 16
    · rw [toRadix_of_lt h]
      intro c hc
      rw [List.mem_singleton.1 hc]
      exact isSome_digitUnit h
    · rw [toRadix_of_le (by decide) (by omega)]
      intro c hc
      rcases List.mem_append.1 hc with hc | hc
      · exact ih _ (by omega) c hc
      · rw [List.mem_singleton.1 hc]
        exact isSome_digitUnit (by omega)

theorem bigIntOfString_hexQuantity (n : Nat) : bigIntOfString (hexQuantity n) = .ok (n : Int) := by
  simp only [bigIntOfString, hexQuantity, lit_hexPrefix, List.cons_append, List.nil_append,
    stringToBigInt_hex, Int.toNat_natCast, trimEnd_of_digits (hexString_toRadix n), parseDigits_toRadix]
  rfl

/-- On `0x` and digits, `normalizeHex` prints the value and `hexToBigInt` is the value. -/
theorem hexToBigInt_of_hexString {s : JsString} (h : HexString s) :
    ∃ n : Nat, parseDigitsFrom 16 0 s = some n ∧ normalizeHex (lit "0x" ++ s) = .ok (hexQuantity n) ∧
      hexToBigInt (lit "0x" ++ s) = .ok (n : Int) := by
  obtain ⟨n, hn⟩ := parseDigitsFrom_of_hexString h 0
  have hnorm : normalizeHex (lit "0x" ++ s) = .ok (hexQuantity n) := by
    rw [normalizeHex, if_neg (by simp)]
    simp only [lit_hexPrefix, List.cons_append, List.nil_append, List.drop_succ_cons, List.drop_zero,
      hexQuantity, Int.toNat_natCast, Result.pure_eq_ok, List.cons.injEq, true_and]
    rw [← parseDigitsFrom_dropWhile_zero] at hn
    cases hstrip : s.dropWhile (· == unit '0') with
    | nil =>
      rw [hstrip] at hn
      simp only [parseDigitsFrom, Option.some.injEq] at hn
      rw [← hn, if_pos rfl]
      decide
    | cons c t =>
      rw [hstrip] at hn
      rw [if_neg (by simp), (toRadix_parseDigitsFrom (head_dropWhile_zero hstrip) hn).1]
  refine ⟨n, hn, hnorm, ?_⟩
  rw [hexToBigInt_eq, hnorm, Result.ok_bind, bigIntOfString_hexQuantity]

/-- **An emitted quantity reads back.** -/
theorem hexToBigInt_hexQuantity {v : Int} (h : 0 ≤ v) : hexToBigInt (hexQuantity v) = .ok v := by
  obtain ⟨n, rfl⟩ := Int.eq_ofNat_of_zero_le h
  obtain ⟨m, hm, -, hread⟩ := hexToBigInt_of_hexString (hexString_toRadix n)
  have hparse := parseDigits_toRadix n
  rw [parseDigits_of_ne_nil (toRadix_ne_nil 16 n), hm, Option.some.injEq] at hparse
  rw [hexQuantity, Int.toNat_natCast, hread, hparse]

theorem bigIntToHexQuantity_eq_ok {value : Int} {s : JsString} :
    bigIntToHexQuantity value = .ok s ↔ 0 ≤ value ∧ s = hexQuantity value := by
  simp only [bigIntToHexQuantity, ite_raise_eq_ok, Result.pure_eq_ok, not_lt]
  exact and_congr_right fun _ => eq_comm

end CkbDilithium.Sdk
