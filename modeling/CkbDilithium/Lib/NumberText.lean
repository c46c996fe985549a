import CkbDilithium.Lib.Decimal

/-!
# Numbers as text

`numberToString` is `String(x)` of a `number`: a safe integer has its decimal digits, any other finite
double the fewest significant digits that read back as it, written out or in scientific notation after the
position of the point. Reading undoes printing on the natural numbers a double can count
(`stringToNumber_numeral`).
-/

namespace CkbDilithium.Js

/-! ### Shortest digits -/

/-- The position `n` of the point, `10 ^ (n - 1) ≤ q < 10 ^ n`, for positive `q`. -/
def decimalPoint (q : ℚ) : Int :=
  let e : Int := (toRadix 10 q.num.natAbs).length - (toRadix 10 q.den).length
  if (10 : ℚ) ^ e ≤ q then e + 1 else e

/-- `s` has `k` digits and, with the point at `n`, reads as the double `q`. -/
def readsBack (q : ℚ) (n : Int) (k s : Nat) : Bool :=
  decide (10 ^ (k - 1) ≤ s) && decide (s < 10 ^ k) &&
    roundToDouble ((s : ℚ) * 10 ^ (n - (k : Int))) == .finite q

/-- The `k` digits that read back as `q` and are closest to it. -/
def digitsOfLength (q : ℚ) (n : Int) (k : Nat) : Option Nat :=
  let scaled := q * 10 ^ ((k : Int) - n)
  let below := scaled.floor.toNat
  let nearest := if scaled - below ≤ below + 1 - scaled then [below, below + 1] else [below + 1, below]
  nearest.find? (readsBack q n k)

/-- Seventeen digits are always enough. -/
def shortestDigits (q : ℚ) (n : Int) : Nat :=
  ((List.range 17).findSome? fun k => digitsOfLength q n (k + 1)).getD 0

/-- The digits with the point at `n`. -/
def placePoint (digits : JsString) (n : Int) : JsString :=
  let k : Int := digits.length
  if k ≤ n ∧ n ≤ 21 then digits ++ List.replicate (n - k).toNat (unit '0')
  else if 0 < n ∧ n ≤ 21 then digits.take n.toNat ++ lit "." ++ digits.drop n.toNat
  else if -6 < n ∧ n ≤ 0 then lit "0." ++ List.replicate (-n).toNat (unit '0') ++ digits
  else
    let sign := if n - 1 < 0 then lit "-" else lit "+"
    let fraction := if k = 1 then [] else lit "." ++ digits.drop 1
    digits.take 1 ++ fraction ++ lit "e" ++ sign ++ toRadix 10 (n - 1).natAbs

/-- The text of a number without its sign. -/
def magnitudeToString (q : ℚ) : JsString :=
  if JsNumber.isSafeInteger (.finite q) then toRadix 10 q.num.natAbs
  else
    let n := decimalPoint q
    placePoint (toRadix 10 (shortestDigits q n)) n

/-- `String(x)`. -/
def numberToString : JsNumber → JsString
  | .nan => lit "NaN"
  | .infinity negative => if negative then lit "-Infinity" else lit "Infinity"
  | .finite q => if q < 0 then lit "-" ++ magnitudeToString (-q) else magnitudeToString q

/-! ### Natural numbers -/

theorem numberToString_ofNat {n : Nat} (h : n ≤ 2 ^ 53 - 1) : numberToString (.ofNat n) = toRadix 10 n := by
  have hsafe : JsNumber.isSafeInteger (.finite (n : ℚ)) = true := (JsNumber.isSafeInteger_ofNat n).2 h
  have hneg : ¬ (n : ℚ) < 0 := not_lt.2 (Nat.cast_nonneg n)
  rw [JsNumber.ofNat, numberToString, if_neg hneg, magnitudeToString, if_pos hsafe]
  simp

/-- Digits do not spell `Infinity`. -/
theorem DigitString.ne_infinity {s : JsString} (h : DigitString s) : s ≠ lit "Infinity" := by
  rintro rfl
  exact absurd (h (unit 'I') (by decide)) (by decide)

/-- Digits are read as an unsigned decimal without fraction and exponent. -/
theorem parseUnsignedDecimal_of_digitString {s : JsString} (hne : s ≠ []) (h : DigitString s) :
    parseUnsignedDecimal s = some (numeralValue s : ℚ) := by
  have htake : s.takeWhile isDigit = s := List.takeWhile_eq_self_iff.2 fun c hc => h c hc
  have hdrop : s.dropWhile isDigit = [] := List.dropWhile_eq_nil_iff.2 fun c hc => h c hc
  have hvalue : decimalValue s = numeralValue s := by
    rw [decimalValue, ← parseDigits_of_ne_nil hne, parseDigits_of_digitString hne h]
    rfl
  simp [parseUnsignedDecimal, htake, hdrop, hne, parseExponent, hvalue]

/-- **Reading undoes printing.** -/
theorem stringToNumber_numeral {n : Nat} (h : n ≤ 2 ^ 53 - 1) : stringToNumber (toRadix 10 n) = .ofNat n := by
  have hdigits := digitString_toRadix n
  have hne := toRadix_ne_nil 10 n
  obtain ⟨c, t, hcons⟩ := List.exists_cons_of_ne_nil hne
  have hc : isDigit c = true := hdigits c (by simp [hcons])
  have hminus : c ≠ unit '-' := ne_of_isDigit hc (by decide)
  have hplus : c ≠ unit '+' := ne_of_isDigit hc (by decide)
  have hvalue := parseUnsignedDecimal_of_digitString hne hdigits
  rw [numeralValue_toRadix] at hvalue
  have hround : roundToDouble (n : ℚ) = .finite n := roundToDouble_natCast (by omega)
  rw [stringToNumber, trim_of_digitString hdigits]
  simp only [parseNonDecimal_of_digitString hdigits, if_neg hne]
  rw [hcons] at hvalue hdigits ⊢
  simp only [hminus, hplus, if_false, hdigits.ne_infinity, hvalue, Bool.false_eq_true]
  exact hround

end CkbDilithium.Js
