import CkbDilithium.Lib.Text

/-!
# JavaScript numbers and bigints

A `number` is `NaN`, an infinity or a finite double, the last as its exact rational value.
`stringToNumber` is `Number(s)` on a string: white space is trimmed, the empty string is `0`, then
the decimal grammar (sign, fraction, exponent, `Infinity`) or an unsigned `0x`/`0o`/`0b` integer is
read and rounded to the nearest double, ties to even. `stringToBigInt` is `BigInt(s)`. Integers
below `2 ^ 53` are doubles, so rounding keeps them (`roundToDouble_natCast`); this is all that
callers with in-range values need.
-/

namespace CkbDilithium.Js

/-! ### Doubles -/

inductive JsNumber where
  | nan
  | infinity (negative : Bool)
  | finite (value : ℚ)
  deriving DecidableEq

/-- A size or index, as a `number`. -/
def JsNumber.ofNat (n : Nat) : JsNumber := .finite n

/-- `Number.isInteger`. -/
def JsNumber.isInteger : JsNumber → Bool
  | .finite q => q.den == 1
  | _ => false

/-- `Number.isSafeInteger`. -/
def JsNumber.isSafeInteger : JsNumber → Bool
  | .finite q => q.den == 1 && decide (|q| ≤ 2 ^ 53 - 1)
  | _ => false

/-- The integer a `number` with `isInteger` stands for. -/
def JsNumber.toInt : JsNumber → Int
  | .finite q => q.num
  | _ => 0

/-- The element of a byte array a `number` becomes: truncated, then modulo `2 ^ 8`. -/
def JsNumber.toUint8 : JsNumber → UInt8
  | .finite q => UInt8.ofNat (q.num.tdiv q.den % 256).toNat
  | _ => 0

@[simp] theorem JsNumber.isInteger_ofNat (n : Nat) : (JsNumber.ofNat n).isInteger = true := by
  simp [JsNumber.ofNat, JsNumber.isInteger]

@[simp] theorem JsNumber.toInt_ofNat (n : Nat) : (JsNumber.ofNat n).toInt = n := by
  simp [JsNumber.ofNat, JsNumber.toInt]

@[simp] theorem JsNumber.isSafeInteger_ofNat (n : Nat) :
    (JsNumber.ofNat n).isSafeInteger = true ↔ n ≤ 2 ^ 53 - 1 := by
  have hcast : ((n : ℚ) ≤ 2 ^ 53 - 1) ↔ n ≤ 2 ^ 53 - 1 := by
    rw [show ((2 : ℚ) ^ 53 - 1) = ((2 ^ 53 - 1 : Nat) : ℚ) by norm_num, Nat.cast_le]
  rw [← hcast]
  simp [JsNumber.ofNat, JsNumber.isSafeInteger]

/-- The integer nearest to `q`, the even one of two. -/
def roundHalfEven (q : ℚ) : Int :=
  let f := q.floor
  let r := q - f
  if r < 1 / 2 then f else if 1 / 2 < r then f + 1 else if f % 2 = 0 then f else f + 1

/-- The exponent `e` with `2 ^ e ≤ q < 2 ^ (e + 1)`, for positive `q`. -/
def binaryExponent (q : ℚ) : Int :=
  let e : Int := q.num.natAbs.log2 - q.den.log2
  if (2 : ℚ) ^ e ≤ q then e else e - 1

/-- The nearest double, ties to even; subnormals have the spacing `2 ^ (-1074)`. -/
def roundToDouble (q : ℚ) : JsNumber :=
  if q = 0 then .finite 0
  else
    let ulp : ℚ := 2 ^ max (binaryExponent |q| - 52) (-1074)
    let v := roundHalfEven (|q| / ulp) * ulp
    if 2 ^ 1024 ≤ v then .infinity (decide (q < 0))
    else .finite (if q < 0 then -v else v)

/-- `Number(v)` on a bigint. -/
def bigIntToNumber (v : Int) : JsNumber := roundToDouble v

theorem roundHalfEven_intCast (n : Int) : roundHalfEven n = n := by
  simp [roundHalfEven]

theorem binaryExponent_natCast {n : Nat} (hn : n ≠ 0) : binaryExponent n = n.log2 := by
  have hle : (2 : ℚ) ^ n.log2 ≤ n := by exact_mod_cast Nat.log2_self_le hn
  have hone : Nat.log2 1 = 0 := by decide
  simp [binaryExponent, hone, hle]

/-- Integers below `2 ^ 53` are doubles. -/
theorem roundToDouble_natCast {n : Nat} (h : n < 2 ^ 53) : roundToDouble n = .finite n := by
  unfold roundToDouble
  by_cases hn : n = 0
  · simp [hn]
  have hlog : n.log2 < 53 := (Nat.log2_lt hn).2 h
  obtain ⟨k, hk⟩ : ∃ k : Nat, max ((n.log2 : Int) - 52) (-1074) = -(k : Int) :=
    ⟨52 - n.log2, by omega⟩
  have habs : |(n : ℚ)| = n := abs_of_nonneg (Nat.cast_nonneg n)
  have hpow : (2 : ℚ) ^ (-(k : Int)) = ((2 : ℚ) ^ k)⁻¹ := by rw [zpow_neg, zpow_natCast]
  have hdiv : (n : ℚ) / ((2 : ℚ) ^ k)⁻¹ = ((n * 2 ^ k : Nat) : Int) := by
    push_cast
    rw [div_inv_eq_mul]
  have hval : ((n * 2 ^ k : Nat) : ℚ) * ((2 : ℚ) ^ k)⁻¹ = n := by
    push_cast
    rw [mul_assoc, mul_inv_cancel₀ (by positivity), mul_one]
  have hbig : ¬ (2 : ℚ) ^ 1024 ≤ n := by
    rw [not_le]
    have h53 : (n : ℚ) < 2 ^ 53 := by exact_mod_cast h
    exact h53.trans (pow_lt_pow_right₀ (by norm_num) (by norm_num))
  have hneg : ¬ (n : ℚ) < 0 := not_lt.2 (Nat.cast_nonneg n)
  simp only [habs, binaryExponent_natCast hn, hk, hpow, hdiv, roundHalfEven_intCast]
  rw [if_neg (by exact_mod_cast hn), Int.cast_natCast, hval, if_neg hbig, if_neg hneg]

theorem bigIntToNumber_natCast {n : Nat} (h : n < 2 ^ 53) :
    bigIntToNumber (n : Int) = JsNumber.ofNat n := by
  simpa [bigIntToNumber, JsNumber.ofNat] using roundToDouble_natCast h

/-! ### Bitwise operators -/

/-- An operand of a bitwise operator, as its 32 bits. -/
abbrev JsInt32 := BitVec 32

/-- `a << n`. -/
def shl (a : JsInt32) (n : Nat) : JsInt32 := a <<< (n % 32)

/-- `a >> n`, keeping the sign. -/
def sar (a : JsInt32) (n : Nat) : JsInt32 := a.sshiftRight (n % 32)

/-! ### Reading numbers -/

/-- White space and line terminators. -/
def isWhiteSpace (c : UInt16) : Bool :=
  (9 ≤ c && c ≤ 13) || c == 32 || c == 0xa0 || c == 0x1680 || (0x2000 ≤ c && c ≤ 0x200a) ||
    c == 0x2028 || c == 0x2029 || c == 0x202f || c == 0x205f || c == 0x3000 || c == 0xfeff

def trim (s : JsString) : JsString :=
  ((s.dropWhile isWhiteSpace).reverse.dropWhile isWhiteSpace).reverse

def isDigit (c : UInt16) : Bool := 48 ≤ c && c ≤ 57

/-- The value of a possibly empty run of decimal digits. -/
def decimalValue (s : JsString) : Nat := (parseDigitsFrom 10 0 s).getD 0

/-- An unsigned integer with a `0x`, `0o` or `0b` prefix. -/
def parseNonDecimal : JsString → Option Nat
  | z :: x :: s =>
    if z ≠ unit '0' then none
    else if x = unit 'x' ∨ x = unit 'X' then parseDigits 16 s
    else if x = unit 'o' ∨ x = unit 'O' then parseDigits 8 s
    else if x = unit 'b' ∨ x = unit 'B' then parseDigits 2 s
    else none
  | _ => none

/-- The exponent part: nothing, or `e` with a signed decimal integer. -/
def parseExponent : JsString → Option Int
  | [] => some 0
  | e :: s =>
    if e ≠ unit 'e' ∧ e ≠ unit 'E' then none
    else match s with
      | [] => none
      | c :: t =>
        if c = unit '-' then (parseDigits 10 t).map fun v => -(v : Int)
        else if c = unit '+' then (parseDigits 10 t).map fun v => (v : Int)
        else (parseDigits 10 s).map fun v => (v : Int)

/-- Digits, an optional fraction and an optional exponent; one digit at least. -/
def parseUnsignedDecimal (s : JsString) : Option ℚ :=
  let whole := s.takeWhile isDigit
  let rest := s.dropWhile isDigit
  let (fraction, rest) : JsString × JsString :=
    if rest.head? = some (unit '.') then (rest.tail.takeWhile isDigit, rest.tail.dropWhile isDigit)
    else ([], rest)
  if whole = [] ∧ fraction = [] then none
  else (parseExponent rest).map fun e : Int =>
    (decimalValue (whole ++ fraction) : ℚ) * 10 ^ (e - (fraction.length : Int))

/-- `Number(s)` on a string. -/
def stringToNumber (s : JsString) : JsNumber :=
  let t := trim s
  let (negative, u) : Bool × JsString :=
    match t with
    | c :: rest => if c = unit '-' then (true, rest) else if c = unit '+' then (false, rest) else (false, t)
    | [] => (false, t)
  if t = [] then .finite 0
  else match parseNonDecimal t with
    | some v => roundToDouble v
    | none =>
      if u = lit "Infinity" then .infinity negative
      else match parseUnsignedDecimal u with
        | some q => roundToDouble (if negative then -q else q)
        | none => .nan

/-- `BigInt(s)` on a string; `none` is the `SyntaxError`. -/
def stringToBigInt (s : JsString) : Option Int :=
  match trim s with
  | [] => some 0
  | c :: t =>
    match parseNonDecimal (c :: t) with
    | some v => some v
    | none =>
      if c = unit '-' then (parseDigits 10 t).map fun v => -(v : Int)
      else if c = unit '+' then (parseDigits 10 t).map fun v => (v : Int)
      else (parseDigits 10 (c :: t)).map fun v => (v : Int)

/-- Trailing white space. -/
def trimEnd (s : JsString) : JsString := (s.reverse.dropWhile isWhiteSpace).reverse

/-- `BigInt` of a `0x` string reads hexadecimal digits, and nothing else is accepted. -/
theorem stringToBigInt_hex (s : JsString) :
    stringToBigInt (48 :: 120 :: s) = (parseDigits 16 (trimEnd s)).map Int.ofNat := by
  have htrim : trim (48 :: 120 :: s) = 48 :: 120 :: trimEnd s := by
    have hstart : (48 :: 120 :: s).dropWhile isWhiteSpace = 48 :: 120 :: s := by
      rw [List.dropWhile_cons_of_neg (by decide)]
    have hx : ([120, 48] : JsString).dropWhile isWhiteSpace = [120, 48] := by decide
    rw [trim, hstart, trimEnd, List.reverse_cons, List.reverse_cons, List.append_assoc,
      List.singleton_append, List.dropWhile_append, hx]
    split_ifs with hnil
    · rw [List.isEmpty_iff.1 hnil]
      rfl
    · simp
  have hx : digitVal? 10 120 = none := by decide
  have hzero : digitVal? 10 48 = some 0 := by decide
  have hnotDec : parseDigits 10 (48 :: 120 :: trimEnd s) = none := by
    simp [parseDigits, parseDigitsFrom, hx, hzero]
  have hhex : parseNonDecimal (48 :: 120 :: trimEnd s) = parseDigits 16 (trimEnd s) := by
    rw [parseNonDecimal, if_neg (by decide), if_pos (by decide)]
  rw [stringToBigInt, htrim]
  simp only [hhex, hnotDec]
  cases parseDigits 16 (trimEnd s) with
  | some v => rfl
  | none =>
    rw [if_neg (by decide), if_neg (by decide)]
    rfl

/-- Digits are not trimmed. -/
theorem trimEnd_of_digits {s : JsString} (h : ∀ c ∈ s, (digitVal? 16 c).isSome) : trimEnd s = s := by
  have hdigit : ∀ c : UInt16, (digitVal? 16 c).isSome → isWhiteSpace c = false := by
    intro c hc
    obtain ⟨d, hd⟩ := Option.isSome_iff_exists.1 hc
    have hlt := digitVal?_lt hd
    have hlower := congrArg UInt16.toNat (lowerUnit_of_digitVal? hd)
    rw [lowerUnit_toNat, digitUnit_toNat d hlt] at hlower
    have hrange : 48 ≤ c.toNat ∧ c.toNat ≤ 102 := by split_ifs at hlower <;> omega
    simp only [isWhiteSpace, Bool.or_eq_false_iff, Bool.and_eq_false_imp, beq_eq_false_iff_ne, ne_eq,
      decide_eq_true_eq, decide_eq_false_iff_not, UInt16.le_iff_toNat_le, ← UInt16.toNat_inj]
    simp
    omega
  have hnone : s.reverse.dropWhile isWhiteSpace = s.reverse := by
    cases hs : s.reverse with
    | nil => rfl
    | cons c t =>
      have hc : c ∈ s := by rw [← List.mem_reverse, hs]; simp
      exact List.dropWhile_cons_of_neg (by simp [hdigit c (h c hc)])
  rw [trimEnd, hnone, List.reverse_reverse]

end CkbDilithium.Js
