import CkbDilithium.Lib.Number
import CkbDilithium.Lib.Digits
import Mathlib.Data.List.DropRight

/-!
# Decimal notation

What a string such as `12.050` stands for. `numeralValue` is the value of a digit string, `Denotes s q` says
that `s` is a decimal (one or more digits, possibly a point and further digits) for the number `q`, and
`Canonical` that none of its zeros can be left out. Two facts matter to a reader and a printer of decimals:
cutting or padding the fraction to `n` digits is rounding down at `10 ^ n` (`floor_denoted`), and a canonical
decimal is shorter than any other decimal for its value (`Canonical.shortest`).
-/

namespace CkbDilithium.Js

/-! ### Digit strings -/

/-- Decimal digits and nothing else. -/
def DigitString (s : JsString) : Prop := ∀ c ∈ s, isDigit c = true

instance (s : JsString) : Decidable (DigitString s) := List.decidableBAll (fun c => isDigit c = true) s

/-- The values of the digits. -/
def digitValues (s : JsString) : List Nat := s.map fun c => c.toNat - 48

/-- The number a digit string stands for. -/
def numeralValue (s : JsString) : Nat := beVal 10 (digitValues s)

theorem isDigit_iff (c : UInt16) : isDigit c = true ↔ 48 ≤ c.toNat ∧ c.toNat ≤ 57 := by
  simp [isDigit, UInt16.le_iff_toNat_le]

theorem DigitString.append {s t : JsString} (hs : DigitString s) (ht : DigitString t) : DigitString (s ++ t) := by
  intro c hc
  rcases List.mem_append.1 hc with hc | hc
  · exact hs c hc
  · exact ht c hc

theorem DigitString.of_subset {s t : JsString} (ht : DigitString t) (h : s ⊆ t) : DigitString s :=
  fun c hc => ht c (h hc)

theorem digitString_zeros (n : Nat) : DigitString (List.replicate n (unit '0')) := by
  intro c hc
  rw [List.eq_of_mem_replicate hc]
  decide

theorem DigitString.point_notMem {s : JsString} (h : DigitString s) : unit '.' ∉ s := by
  intro hmem
  exact absurd (h _ hmem) (by decide)

theorem digitValues_lt {s : JsString} (h : DigitString s) : ∀ d ∈ digitValues s, d < 10 := by
  intro d hd
  obtain ⟨c, hc, rfl⟩ := List.mem_map.1 hd
  have hrange := (isDigit_iff c).1 (h c hc)
  omega

theorem digitValues_zeros (n : Nat) : digitValues (List.replicate n (unit '0')) = List.replicate n 0 := by
  rw [digitValues, List.map_replicate]
  rfl

theorem numeralValue_append (s t : JsString) :
    numeralValue (s ++ t) = numeralValue s * 10 ^ t.length + numeralValue t := by
  rw [numeralValue, digitValues, List.map_append, beVal_append, List.length_map]
  rfl

@[simp] theorem numeralValue_zeros (n : Nat) : numeralValue (List.replicate n (unit '0')) = 0 := by
  rw [numeralValue, digitValues_zeros, beVal_replicate_zero]

theorem numeralValue_lt {s : JsString} (h : DigitString s) : numeralValue s < 10 ^ s.length := by
  have hlt := beVal_lt (digitValues_lt h)
  rwa [digitValues, List.length_map] at hlt

/-- Digit strings of one length are determined by their value. -/
theorem numeralValue_inj {s t : JsString} (hs : DigitString s) (ht : DigitString t) (hlen : s.length = t.length)
    (h : numeralValue s = numeralValue t) : s = t := by
  have hvalues : digitValues s = digitValues t :=
    beVal_inj (by simpa [digitValues] using hlen) (digitValues_lt hs) (digitValues_lt ht) h
  clear h hlen
  induction s generalizing t with
  | nil => simpa [digitValues] using hvalues
  | cons c s ih =>
    cases t with
    | nil => simp [digitValues] at hvalues
    | cons e t =>
      have hc := (isDigit_iff c).1 (hs c (by simp))
      have he := (isDigit_iff e).1 (ht e (by simp))
      rw [digitValues, digitValues, List.map_cons, List.map_cons, List.cons.injEq] at hvalues
      rw [ih (hs.of_subset (by simp)) (ht.of_subset (by simp)) hvalues.2]
      congr 1
      apply UInt16.toNat_inj.1
      omega

/-! ### Numerals -/

theorem digitVal?_of_isDigit {c : UInt16} (h : isDigit c = true) : digitVal? 10 c = some (c.toNat - 48) := by
  have hrange := (isDigit_iff c).1 h
  have hlt : c.toNat - 48 < 10 := by omega
  simp only [digitVal?, if_pos hrange, if_pos hlt]

theorem parseDigitsFrom_of_digitString {s : JsString} (h : DigitString s) (acc : Nat) :
    parseDigitsFrom 10 acc s = some (acc * 10 ^ s.length + numeralValue s) := by
  induction s generalizing acc with
  | nil => simp [parseDigitsFrom, numeralValue, digitValues]
  | cons c s ih =>
    have hc := digitVal?_of_isDigit (h c (by simp))
    have hsplit : numeralValue (c :: s) = (c.toNat - 48) * 10 ^ s.length + numeralValue s := by
      rw [numeralValue, digitValues, List.map_cons, beVal_cons, List.length_map]
      rfl
    rw [parseDigitsFrom, hc, Option.bind_some, ih (h.of_subset (by simp)), hsplit, List.length_cons, pow_succ]
    congr 1
    ring

theorem parseDigits_of_digitString {s : JsString} (hne : s ≠ []) (h : DigitString s) :
    parseDigits 10 s = some (numeralValue s) := by
  rw [parseDigits_of_ne_nil hne, parseDigitsFrom_of_digitString h, Nat.zero_mul, Nat.zero_add]

theorem ne_of_isDigit {c e : UInt16} (hc : isDigit c = true) (he : isDigit e = false) : c ≠ e := by
  rintro rfl
  rw [hc] at he
  exact absurd he (by decide)

theorem trim_of_digitString {s : JsString} (h : DigitString s) : trim s = s := by
  have hhex : ∀ c ∈ s, (digitVal? 16 c).isSome := by
    intro c hc
    have hrange := (isDigit_iff c).1 (h c hc)
    have hlt : c.toNat - 48 < 16 := by omega
    simp only [digitVal?, if_pos hrange, if_pos hlt, Option.isSome_some]
  have hstart : s.dropWhile isWhiteSpace = s := by
    cases s with
    | nil => rfl
    | cons c t =>
      have hrange := (isDigit_iff c).1 (h c (by simp))
      apply List.dropWhile_cons_of_neg
      simp only [isWhiteSpace, Bool.not_eq_true, Bool.or_eq_false_iff, Bool.and_eq_false_imp, beq_eq_false_iff_ne,
        ne_eq, decide_eq_true_eq, decide_eq_false_iff_not, UInt16.le_iff_toNat_le, ← UInt16.toNat_inj]
      simp
      omega
  rw [trim, hstart]
  exact trimEnd_of_digits hhex

/-- The letter after a leading `0` would not be a digit. -/
theorem parseNonDecimal_of_digitString {s : JsString} (h : DigitString s) : parseNonDecimal s = none := by
  cases s with
  | nil => rfl
  | cons z s =>
    cases s with
    | nil => rfl
    | cons x s =>
      have hx : isDigit x = true := h x (by simp)
      have hletter : ∀ e : UInt16, isDigit e = false → x ≠ e := fun e he => ne_of_isDigit hx he
      by_cases hz : z = unit '0'
      · rw [parseNonDecimal, if_neg (not_not.2 hz),
          if_neg (not_or.2 ⟨hletter _ (by decide), hletter _ (by decide)⟩),
          if_neg (not_or.2 ⟨hletter _ (by decide), hletter _ (by decide)⟩),
          if_neg (not_or.2 ⟨hletter _ (by decide), hletter _ (by decide)⟩)]
      · rw [parseNonDecimal, if_pos hz]

/-- `BigInt` of a numeral: leading zeros are allowed. -/
theorem stringToBigInt_of_digitString {s : JsString} (hne : s ≠ []) (h : DigitString s) :
    stringToBigInt s = some (numeralValue s : Int) := by
  rw [stringToBigInt, trim_of_digitString h]
  cases s with
  | nil => exact absurd rfl hne
  | cons c t =>
    have hc : isDigit c = true := h c (by simp)
    simp only [parseNonDecimal_of_digitString h, if_neg (ne_of_isDigit hc (by decide : isDigit (unit '-') = false)),
      if_neg (ne_of_isDigit hc (by decide : isDigit (unit '+') = false)), parseDigits_of_digitString hne h]
    rfl

theorem digitString_toRadix (n : Nat) : DigitString (toRadix 10 n) := by
  induction n using Nat.strong_induction_on with
  | _ n ih =>
    have hdigit : ∀ d < 10, DigitString [digitUnit d] := by decide
    by_cases h : n < 10
    · rw [toRadix_of_lt h]
      exact hdigit n h
    · rw [toRadix_of_le (by decide) (by omega)]
      exact (ih _ (by omega)).append (hdigit _ (by omega))

@[simp] theorem numeralValue_toRadix (n : Nat) : numeralValue (toRadix 10 n) = n := by
  have hparse := parseDigits_toRadix_ten n
  rw [parseDigits_of_digitString (toRadix_ne_nil 10 n) (digitString_toRadix n), Option.some.injEq] at hparse
  exact hparse

/-- No zero in front, unless it is the only digit. -/
def NoLeadingZero (w : JsString) : Prop := w = lit "0" ∨ w.head? ≠ some (unit '0')

instance (w : JsString) : Decidable (NoLeadingZero w) :=
  inferInstanceAs (Decidable (w = lit "0" ∨ w.head? ≠ some (unit '0')))

theorem noLeadingZero_toRadix (n : Nat) : NoLeadingZero (toRadix 10 n) := by
  induction n using Nat.strong_induction_on with
  | _ n ih =>
    have hdigit : ∀ d < 10, NoLeadingZero [digitUnit d] := by decide
    by_cases h : n < 10
    · rw [toRadix_of_lt h]
      exact hdigit n h
    · have hne := toRadix_ne_nil 10 (n / 10)
      rw [toRadix_of_le (by decide) (by omega), NoLeadingZero, List.head?_append_of_ne_nil _ hne]
      rcases ih (n / 10) (by omega) with hzero | hhead
      · -- The quotient is not zero.
        have hvalue := congrArg numeralValue hzero
        rw [numeralValue_toRadix, show numeralValue (lit "0") = 0 by decide] at hvalue
        omega
      · exact Or.inr hhead

theorem toRadix_length_le {n k : Nat} (hk : 0 < k) (h : n < 10 ^ k) : (toRadix 10 n).length ≤ k := by
  rw [toRadix, List.length_map]
  exact (Nat.length_toDigits_le_iff (by decide) hk).2 h

/-! ### Decimals -/

/-- The value of the digits after the point. -/
def fractionValue (f : JsString) : ℚ := numeralValue f / 10 ^ f.length

/-- `s` is a decimal for `q`: one or more digits, then possibly a point and any number of digits. -/
inductive Denotes : JsString → ℚ → Prop where
  | whole {w : JsString} (hne : w ≠ []) (hw : DigitString w) : Denotes w (numeralValue w)
  | point {w f : JsString} (hne : w ≠ []) (hw : DigitString w) (hf : DigitString f) :
    Denotes (w ++ unit '.' :: f) (numeralValue w + fractionValue f)

/-- A decimal without a zero or a point that could be left out. -/
inductive Canonical : JsString → Prop where
  | whole {w : JsString} (hne : w ≠ []) (hw : DigitString w) (hlead : NoLeadingZero w) : Canonical w
  | point {w f : JsString} (hne : w ≠ []) (hw : DigitString w) (hlead : NoLeadingZero w) (hfne : f ≠ [])
    (hf : DigitString f) (hlast : f.getLast? ≠ some (unit '0')) : Canonical (w ++ unit '.' :: f)

section Decimals

variable {w w' f f' s t : JsString} {q : ℚ}

theorem fractionValue_nonneg (f : JsString) : 0 ≤ fractionValue f := by
  rw [fractionValue]
  positivity

theorem fractionValue_lt_one (hf : DigitString f) : fractionValue f < 1 := by
  rw [fractionValue, div_lt_one (by positivity)]
  exact_mod_cast numeralValue_lt hf

@[simp] theorem fractionValue_nil : fractionValue [] = 0 := by simp [fractionValue, numeralValue, digitValues]

/-- A point with nothing after it changes nothing. -/
theorem Denotes.parts (h : Denotes s q) : ∃ w f, w ≠ [] ∧ DigitString w ∧ DigitString f ∧
    q = numeralValue w + fractionValue f ∧ ((s = w ∧ f = []) ∨ s = w ++ unit '.' :: f) := by
  cases h with
  | whole hne hw =>
    refine ⟨s, [], hne, hw, by simp [DigitString], ?_, Or.inl ⟨rfl, rfl⟩⟩
    rw [fractionValue_nil, add_zero]
  | point hne hw hf => exact ⟨_, _, hne, hw, hf, rfl, Or.inr rfl⟩

theorem Denotes.count_point (h : Denotes s q) : s.count (unit '.') ≤ 1 := by
  have hcount : ∀ {s : JsString}, DigitString s → s.count (unit '.') = 0 :=
    fun hs => List.count_eq_zero.2 hs.point_notMem
  cases h with
  | whole _ hw => simp [hcount hw]
  | point _ hw hf => simp [hcount hw, hcount hf]

/-- Cutting the fraction after `n` digits, or filling it up to them, rounds down at `10 ^ n`. -/
theorem floor_denoted (w : JsString) (hf : DigitString f) (n : Nat) :
    ⌊((numeralValue w : ℚ) + fractionValue f) * 10 ^ n⌋ =
      (numeralValue w * 10 ^ n + numeralValue ((f ++ List.replicate n (unit '0')).take n) : Nat) := by
  have hscaled : ((numeralValue w : ℚ) + fractionValue f) * 10 ^ n =
      (numeralValue w * 10 ^ n : Nat) + ((numeralValue f * 10 ^ n : Nat) : ℚ) / (10 ^ f.length : Nat) := by
    rw [fractionValue]
    push_cast
    ring
  have hcut : numeralValue ((f ++ List.replicate n (unit '0')).take n) = numeralValue f * 10 ^ n / 10 ^ f.length := by
    have hdigits := beVal_take_zeros (b := 10) (by decide) n (digitValues_lt hf)
    rw [digitValues, List.length_map, ← digitValues] at hdigits
    rw [numeralValue, digitValues, List.map_take, List.map_append, ← digitValues, ← digitValues, digitValues_zeros,
      hdigits, numeralValue]
  rw [hscaled, Int.floor_natCast_add, hcut, Int.floor_div_natCast, Int.floor_natCast]
  push_cast
  ring

/-- Zeros at the end of a fraction do not change its value. -/
theorem fractionValue_append_zeros (f : JsString) (k : Nat) :
    fractionValue (f ++ List.replicate k (unit '0')) = fractionValue f := by
  rw [fractionValue, fractionValue, numeralValue_append, numeralValue_zeros, List.length_append, List.length_replicate,
    Nat.add_zero, pow_add]
  push_cast
  rw [mul_div_mul_right _ _ (by positivity)]

theorem fractionValue_rdropWhile (f : JsString) : fractionValue (f.rdropWhile (· == unit '0')) = fractionValue f := by
  have hzeros : f.rtakeWhile (· == unit '0') = List.replicate (f.rtakeWhile (· == unit '0')).length (unit '0') := by
    rw [List.eq_replicate_iff]
    exact ⟨rfl, fun c hc => by simpa using List.mem_rtakeWhile_imp hc⟩
  nth_rewrite 2 [← List.rdropWhile_append_rtakeWhile (p := (· == unit '0')) (l := f)]
  rw [hzeros, fractionValue_append_zeros]

/-- The whole part and the fraction are determined by the number. -/
theorem parts_unique (hf : DigitString f) (hf' : DigitString f')
    (h : (numeralValue w : ℚ) + fractionValue f = numeralValue w' + fractionValue f') :
    numeralValue w = numeralValue w' ∧ fractionValue f = fractionValue f' := by
  have hlt := fractionValue_lt_one hf
  have hlt' := fractionValue_lt_one hf'
  have hnonneg := fractionValue_nonneg f
  have hnonneg' := fractionValue_nonneg f'
  have hle : numeralValue w < numeralValue w' + 1 := by
    have : (numeralValue w : ℚ) < numeralValue w' + 1 := by linarith
    exact_mod_cast this
  have hle' : numeralValue w' < numeralValue w + 1 := by
    have : (numeralValue w' : ℚ) < numeralValue w + 1 := by linarith
    exact_mod_cast this
  have hwhole : numeralValue w = numeralValue w' := by omega
  rw [hwhole] at h
  exact ⟨hwhole, by linarith⟩

/-- Another digit string of the value of a numeral has more zeros in front. -/
theorem NoLeadingZero.shortest (hlead : NoLeadingZero w) (hw : DigitString w) (hw' : DigitString w') (hne' : w' ≠ [])
    (h : numeralValue w = numeralValue w') : w' = w ∨ w.length < w'.length := by
  by_cases hlen : w.length < w'.length
  · exact Or.inr hlen
  · have hfilled : List.replicate (w.length - w'.length) (unit '0') ++ w' = w := by
      apply numeralValue_inj ((digitString_zeros _).append hw') hw
      · rw [List.length_append, List.length_replicate]
        omega
      · rw [numeralValue_append, numeralValue_zeros, h]
        omega
    left
    cases hzeros : w.length - w'.length with
    | zero =>
      rw [hzeros] at hfilled
      exact hfilled
    | succ k =>
      -- A zero in front of `w` is its only digit, and none is left for `w'`.
      have hpos := List.length_pos_iff.2 hne'
      rw [hzeros, List.replicate_succ] at hfilled
      rcases hlead with hzero | hhead
      · rw [hzero] at hzeros
        have hone : (lit "0").length = 1 := by decide
        omega
      · rw [← hfilled] at hhead
        exact absurd rfl hhead

/-- Another fraction of the same value has more zeros at the end. -/
theorem fraction_shortest (hlast : f.getLast? ≠ some (unit '0')) (hf : DigitString f) (hf' : DigitString f')
    (h : fractionValue f = fractionValue f') : f' = f ∨ f.length < f'.length := by
  by_cases hlen : f.length < f'.length
  · exact Or.inr hlen
  · obtain ⟨k, hk⟩ : ∃ k, f.length = f'.length + k := ⟨f.length - f'.length, by omega⟩
    have hfilled : f' ++ List.replicate k (unit '0') = f := by
      apply numeralValue_inj (hf'.append (digitString_zeros k)) hf
      · rw [List.length_append, List.length_replicate, hk]
      · rw [numeralValue_append, numeralValue_zeros, List.length_replicate, Nat.add_zero]
        rw [fractionValue, fractionValue, hk, div_eq_div_iff (by positivity) (by positivity), pow_add] at h
        have hscaled : (10 : ℚ) ^ f'.length * numeralValue f =
            10 ^ f'.length * (numeralValue f' * 10 ^ k) := by linarith
        have hcancel := mul_left_cancel₀ (by positivity) hscaled
        exact_mod_cast hcancel.symm
    left
    cases k with
    | zero => simpa using hfilled
    | succ k =>
      rw [← hfilled, List.replicate_succ', ← List.append_assoc, List.getLast?_append] at hlast
      simp at hlast

theorem point_notMem_of_eq (hs : DigitString s) : s ≠ w ++ unit '.' :: f := by
  rintro rfl
  exact hs.point_notMem (by simp)

/-- A string denotes one number. -/
theorem Denotes.unique {q' : ℚ} (h : Denotes s q) (h' : Denotes s q') : q = q' := by
  cases h with
  | whole hne hw =>
    generalize hs : s = s' at h'
    cases h' with
    | whole => rfl
    | point => exact absurd hs (point_notMem_of_eq hw)
  | @point w f hne hw hf =>
    generalize hs : w ++ unit '.' :: f = s' at h'
    cases h' with
    | whole _ hw' => exact absurd hs.symm (point_notMem_of_eq hw')
    | point _ hw' hf' =>
      obtain ⟨rfl, -, rfl⟩ := (List.append_cons_inj_of_notMem hw'.point_notMem hf'.point_notMem).1 hs.symm
      rfl

/-- **A canonical decimal is the shortest one**: every other decimal for its value is longer. -/
theorem Canonical.shortest (hs : Canonical s) (h : Denotes s q) (ht : Denotes t q) : t = s ∨ s.length < t.length := by
  obtain ⟨w', f', hne', hw', hf', hq', hsplit'⟩ := ht.parts
  cases hs with
  | whole hne hw hlead =>
    have hq := h.unique (.whole hne hw)
    have hvalue : (numeralValue s : ℚ) + fractionValue [] = numeralValue w' + fractionValue f' := by
      rw [← hq', hq, fractionValue_nil, add_zero]
    obtain ⟨hwhole, -⟩ := parts_unique (by simp [DigitString]) hf' hvalue
    rcases hlead.shortest hw hw' hne' hwhole with rfl | hlt <;> rcases hsplit' with ⟨rfl, -⟩ | rfl
    · exact Or.inl rfl
    · exact Or.inr (by simp)
    · exact Or.inr hlt
    · exact Or.inr (by simp; omega)
  | @point w f hne hw hlead hfne hf hlast =>
    have hq := h.unique (.point hne hw hf)
    obtain ⟨hwhole, hfraction⟩ := parts_unique hf hf' (hq.symm.trans hq')
    have hwlen := hlead.shortest hw hw' hne' hwhole
    rcases fraction_shortest hlast hf hf' hfraction with rfl | hlt
    · rcases hsplit' with ⟨-, hnil⟩ | rfl
      · exact absurd hnil hfne
      · rcases hwlen with rfl | hlt
        · exact Or.inl rfl
        · exact Or.inr (by simp; omega)
    · -- The longer fraction is written out, and the whole part is not shorter.
      rcases hsplit' with ⟨-, rfl⟩ | rfl
      · simp at hlt
      · right
        rcases hwlen with rfl | hwlt
        · simp [hlt]
        · simp
          omega

end Decimals

end CkbDilithium.Js
