import CkbDilithium.Sdk.Amount

/-!
# Amounts of the command line

What `parseCkbAmount` reads and what `formatCkb` shows, against decimal notation (`Denotes`). The parser splits
its text at the points and looks at the first two pieces (`Pieces`): a decimal is read as its number of shannons,
rounded down, and so is a text that goes on after a second point. What `formatCkb` prints is canonical,
so it reads back as the amount and no other text for the amount is as short.
-/

namespace CkbDilithium.Sdk

open Js

/-! ### The pieces between points -/

/-- The first two pieces of a text: up to the first point, and from there to the next. -/
inductive Pieces : JsString → JsString → JsString → Prop where
  | one {w : JsString} (hw : unit '.' ∉ w) : Pieces w w []
  | two {w f : JsString} (hw : unit '.' ∉ w) (hf : unit '.' ∉ f) : Pieces (w ++ unit '.' :: f) w f
  | more {w f rest : JsString} (hw : unit '.' ∉ w) (hf : unit '.' ∉ f) :
    Pieces (w ++ unit '.' :: (f ++ unit '.' :: rest)) w f

section Pieces

variable {s w f : JsString}

theorem exists_pieces (s : JsString) : ∃ w f, Pieces s w f := by
  by_cases hs : unit '.' ∈ s
  · obtain ⟨w, t, rfl, hw⟩ := List.eq_append_cons_of_mem hs
    by_cases ht : unit '.' ∈ t
    · obtain ⟨f, rest, rfl, hf⟩ := List.eq_append_cons_of_mem ht
      exact ⟨w, f, .more hw hf⟩
    · exact ⟨w, t, .two hw ht⟩
  · exact ⟨s, [], .one hs⟩

theorem Pieces.split_eq (h : Pieces s w f) :
    (split s (unit '.')).getD 0 [] = w ∧ (split s (unit '.')).getD 1 [] = f := by
  cases h with
  | one hw => simp [split, List.splitOn_eq_singleton hw]
  | two hw hf => simp [split, List.splitOn_append_cons_self_of_not_mem hw, List.splitOn_eq_singleton hf]
  | more hw hf =>
    simp [split, List.splitOn_append_cons_self_of_not_mem hw, List.splitOn_append_cons_self_of_not_mem hf]

/-- Digits in both pieces, one at least before the point. -/
def DecimalPieces (w f : JsString) : Prop := w ≠ [] ∧ DigitString w ∧ DigitString f

instance (w f : JsString) : Decidable (DecimalPieces w f) :=
  inferInstanceAs (Decidable (w ≠ [] ∧ DigitString w ∧ DigitString f))

end Pieces

/-! ### The parser -/

theorem bigIntOfString_of_digitString {s : JsString} (hne : s ≠ []) (h : DigitString s) :
    bigIntOfString s = .ok (numeralValue s : Int) := by
  rw [bigIntOfString, stringToBigInt_of_digitString hne h]
  rfl

theorem padEnd_take (f : JsString) (n : Nat) (c : UInt16) :
    (padEnd f n c).take n = (f ++ List.replicate n c).take n := by
  rw [padEnd, List.take_append, List.take_append, List.take_replicate, List.take_replicate]
  simp

/-- The parser reads the two pieces as a decimal, whatever comes after them. -/
theorem parseCkbAmount_pieces {s w f : JsString} (h : Pieces s w f) :
    parseCkbAmount s = if DecimalPieces w f then .ok ⌊((numeralValue w : ℚ) + fractionValue f) * 10 ^ 8⌋
      else raise (lit "Invalid CKB amount: " ++ s) := by
  obtain ⟨hw, hf⟩ := h.split_eq
  have htest : (¬ (w ≠ [] ∧ w.all isDigit = true) ∨ ¬ f.all isDigit = true) ↔ ¬ DecimalPieces w f := by
    rw [DecimalPieces, DigitString, DigitString, List.all_eq_true, List.all_eq_true]
    tauto
  simp only [parseCkbAmount, hw, hf, htest, ite_not]
  by_cases hdigits : DecimalPieces w f
  · rw [if_pos hdigits, if_pos hdigits]
    obtain ⟨hne, hwd, hfd⟩ := hdigits
    have height : (f ++ List.replicate 8 (unit '0')).take 8 ≠ [] := by simp
    have hread : DigitString ((f ++ List.replicate 8 (unit '0')).take 8) :=
      (hfd.append (digitString_zeros 8)).of_subset (List.take_subset 8 _)
    rw [padEnd_take, if_neg height, bigIntOfString_of_digitString hne hwd,
      bigIntOfString_of_digitString height hread, floor_denoted w hfd, shannonsPerCkb]
    simp
  · rw [if_neg hdigits, if_neg hdigits]

theorem parseCkbAmount_eq_ok {s : JsString} {v : Int} (h : parseCkbAmount s = .ok v) :
    ∃ w f, Pieces s w f ∧ DecimalPieces w f ∧ v = ⌊((numeralValue w : ℚ) + fractionValue f) * 10 ^ 8⌋ := by
  obtain ⟨w, f, hpieces⟩ := exists_pieces s
  rw [parseCkbAmount_pieces hpieces] at h
  by_cases hdigits : DecimalPieces w f
  · rw [if_pos hdigits] at h
    exact ⟨w, f, hpieces, hdigits, (Except.ok.inj h).symm⟩
  · rw [if_neg hdigits] at h
    exact absurd h raise_ne_ok

/-! ### What is read -/

/-- What the amount reader is for, at `s`: it returns on the decimals, the number in shannons rounded down, and
throws on everything else. -/
def ReadsDecimal (s : JsString) : Prop :=
  ((∃ v, parseCkbAmount s = .ok v) ↔ ∃ q, Denotes s q) ∧ ∀ q, Denotes s q → parseCkbAmount s = .ok ⌊q * 10 ^ 8⌋

/-- Digits, a point, digits or none, and a second point. -/
def SecondPoint (s : JsString) : Prop :=
  ∃ w f rest, s = w ++ unit '.' :: (f ++ unit '.' :: rest) ∧ w ≠ [] ∧ DigitString w ∧ DigitString f

theorem SecondPoint.count_point {s : JsString} (h : SecondPoint s) : 2 ≤ s.count (unit '.') := by
  obtain ⟨w, f, rest, rfl, -⟩ := h
  simp
  omega

theorem pieces_of_denotes {s : JsString} {q : ℚ} (h : Denotes s q) :
    ∃ w f, Pieces s w f ∧ DecimalPieces w f ∧ q = numeralValue w + fractionValue f := by
  obtain ⟨w, f, hne, hw, hf, hq, hsplit⟩ := h.parts
  refine ⟨w, f, ?_, ⟨hne, hw, hf⟩, hq⟩
  rcases hsplit with ⟨rfl, rfl⟩ | rfl
  · exact .one hw.point_notMem
  · exact .two hw.point_notMem hf.point_notMem

theorem parseCkbAmount_denoted {s : JsString} {q : ℚ} (h : Denotes s q) : parseCkbAmount s = .ok ⌊q * 10 ^ 8⌋ := by
  obtain ⟨w, f, hpieces, hdigits, rfl⟩ := pieces_of_denotes h
  rw [parseCkbAmount_pieces hpieces, if_pos hdigits]

/-- A text that is read is a decimal, or has a second point. -/
theorem denotes_or_secondPoint {s : JsString} {v : Int} (h : parseCkbAmount s = .ok v) :
    (∃ q, Denotes s q) ∨ SecondPoint s := by
  obtain ⟨w, f, hpieces, ⟨hne, hw, hf⟩, -⟩ := parseCkbAmount_eq_ok h
  cases hpieces with
  | one => exact Or.inl ⟨_, .whole hne hw⟩
  | two => exact Or.inl ⟨_, .point hne hw hf⟩
  | more => exact Or.inr ⟨w, f, _, rfl, hne, hw, hf⟩

theorem SecondPoint.parseCkbAmount_returns {s : JsString} (h : SecondPoint s) : ∃ v, parseCkbAmount s = .ok v := by
  obtain ⟨w, f, rest, rfl, hne, hw, hf⟩ := h
  rw [parseCkbAmount_pieces (.more hw.point_notMem hf.point_notMem), if_pos ⟨hne, hw, hf⟩]
  exact ⟨_, rfl⟩

/-- **Amounts are decimals, up to a second point.** On a text without a second point after digits the parser returns
exactly when it is a decimal, and then the number in shannons, rounded down; a text with one is no decimal, and it
is read all the same. -/
theorem parseCkbAmount_readsDecimal (s : JsString) : ReadsDecimal s ↔ ¬ SecondPoint s := by
  constructor
  · intro hreads hsecond
    obtain ⟨q, hq⟩ := hreads.1.1 hsecond.parseCkbAmount_returns
    have hone := hq.count_point
    have htwo := hsecond.count_point
    omega
  · intro hsecond
    refine ⟨⟨?_, ?_⟩, fun q hq => parseCkbAmount_denoted hq⟩
    · intro h
      obtain ⟨v, hv⟩ := h
      exact (denotes_or_secondPoint hv).resolve_right hsecond
    · intro h
      obtain ⟨q, hq⟩ := h
      exact ⟨_, parseCkbAmount_denoted hq⟩

/-- The rest of `1.2.3` is dropped. -/
theorem parseCkbAmount_second_point :
    parseCkbAmount (lit "1.2.3") = .ok 120000000 ∧ (¬ ∃ q, Denotes (lit "1.2.3") q) ∧ ¬ ReadsDecimal (lit "1.2.3") := by
  have hread : parseCkbAmount (lit "1.2.3") = .ok 120000000 := by decide +kernel
  have hnot : ¬ ∃ q, Denotes (lit "1.2.3") q := by
    intro h
    obtain ⟨q, hq⟩ := h
    have hcount : (lit "1.2.3").count (unit '.') = 2 := by decide
    have hone := hq.count_point
    omega
  exact ⟨hread, hnot, fun h => hnot (h.1.1 ⟨_, hread⟩)⟩

/-! ### What is shown -/

/-- The digits shown after the point. -/
def fractionDigits (v : Nat) : JsString := stripTrailingZeros (padStart (toRadix 10 (v % 10 ^ 8)) 8 (unit '0'))

theorem bigIntToString_natCast (n : Nat) : bigIntToString n = toRadix 10 n := by
  rw [bigIntToString, if_neg (by omega), Int.toNat_natCast]

theorem formatCkb_natCast (v : Nat) : formatCkb v =
    if fractionDigits v = [] then toRadix 10 (v / 10 ^ 8)
    else toRadix 10 (v / 10 ^ 8) ++ unit '.' :: fractionDigits v := by
  have hwhole : (v : Int).tdiv shannonsPerCkb = (v / 10 ^ 8 : Nat) := rfl
  have hrest : (v : Int).tmod shannonsPerCkb = (v % 10 ^ 8 : Nat) := rfl
  have hpoint : lit "." = [unit '.'] := rfl
  simp only [formatCkb, hwhole, hrest, bigIntToString_natCast, fractionDigits, hpoint, List.append_assoc,
    List.singleton_append, ne_eq, ite_not]
  congr

/-- The eight digits of the rest are a fraction of `10 ^ 8`. -/
theorem fractionValue_padStart {m : Nat} (h : m < 10 ^ 8) :
    fractionValue (padStart (toRadix 10 m) 8 (unit '0')) = m / 10 ^ 8 := by
  have hlen : (padStart (toRadix 10 m) 8 (unit '0')).length = 8 := by
    have hle := toRadix_length_le (by decide) h
    rw [padStart, List.length_append, List.length_replicate]
    omega
  have hvalue : numeralValue (padStart (toRadix 10 m) 8 (unit '0')) = m := by
    rw [padStart, numeralValue_append, numeralValue_zeros, numeralValue_toRadix, Nat.zero_mul, Nat.zero_add]
  rw [fractionValue, hlen, hvalue]

theorem fractionValue_fractionDigits (v : Nat) : fractionValue (fractionDigits v) = (v % 10 ^ 8 : Nat) / 10 ^ 8 := by
  rw [fractionDigits, stripTrailingZeros, fractionValue_rdropWhile, fractionValue_padStart (Nat.mod_lt v (by decide))]

theorem digitString_fractionDigits (v : Nat) : DigitString (fractionDigits v) := by
  have hpadded : DigitString (padStart (toRadix 10 (v % 10 ^ 8)) 8 (unit '0')) :=
    (digitString_zeros _).append (digitString_toRadix _)
  exact hpadded.of_subset (List.rdropWhile_prefix _ _).subset

theorem fractionDigits_last (v : Nat) : (fractionDigits v).getLast? ≠ some (unit '0') := by
  intro hlast
  have hne : fractionDigits v ≠ [] := by
    intro hnil
    rw [hnil] at hlast
    exact absurd hlast (by decide)
  have hlastNot : ¬ ((fractionDigits v).getLast hne == unit '0') = true := List.rdropWhile_last_not _ _ hne
  rw [List.getLast?_eq_some_getLast hne, Option.some.injEq] at hlast
  exact hlastNot (beq_iff_eq.2 hlast)

/-- What is shown is a decimal for the amount in CKB. -/
theorem formatCkb_denotes (v : Nat) : Denotes (formatCkb v) (v / 10 ^ 8) := by
  have hne := toRadix_ne_nil 10 (v / 10 ^ 8)
  have hwhole := digitString_toRadix (v / 10 ^ 8)
  have hvalue : ((v : ℚ) / 10 ^ 8) = (v / 10 ^ 8 : Nat) + fractionValue (fractionDigits v) := by
    have hdivmod : (v : ℚ) = (10 ^ 8 * (v / 10 ^ 8) + v % 10 ^ 8 : Nat) := by rw [Nat.div_add_mod]
    rw [fractionValue_fractionDigits, div_eq_iff (by positivity), add_mul, div_mul_cancel₀ _ (by positivity)]
    nth_rewrite 1 [hdivmod]
    push_cast
    ring
  rw [formatCkb_natCast]
  by_cases hnil : fractionDigits v = []
  · rw [if_pos hnil, hvalue, hnil, fractionValue_nil, add_zero]
    nth_rewrite 2 [← numeralValue_toRadix (v / 10 ^ 8)]
    exact .whole hne hwhole
  · rw [if_neg hnil, hvalue]
    nth_rewrite 2 [← numeralValue_toRadix (v / 10 ^ 8)]
    exact .point hne hwhole (digitString_fractionDigits v)

theorem formatCkb_canonical (v : Nat) : Canonical (formatCkb v) := by
  have hne := toRadix_ne_nil 10 (v / 10 ^ 8)
  have hwhole := digitString_toRadix (v / 10 ^ 8)
  have hlead := noLeadingZero_toRadix (v / 10 ^ 8)
  rw [formatCkb_natCast]
  by_cases hnil : fractionDigits v = []
  · rw [if_pos hnil]
    exact .whole hne hwhole hlead
  · rw [if_neg hnil]
    exact .point hne hwhole hlead hnil (digitString_fractionDigits v) (fractionDigits_last v)

theorem parseCkbAmount_formatCkb_natCast (v : Nat) : parseCkbAmount (formatCkb v) = .ok (v : Int) := by
  rw [parseCkbAmount_denoted (formatCkb_denotes v), div_mul_cancel₀ _ (by positivity), Int.floor_natCast]

/-- Of a fraction the first eight digits are read. -/
theorem fractionValue_take (f : JsString) :
    fractionValue (f.take 8) = numeralValue ((f ++ List.replicate 8 (unit '0')).take 8) / 10 ^ 8 := by
  have hpadded : (f ++ List.replicate 8 (unit '0')).take 8 = f.take 8 ++ List.replicate (8 - f.length) (unit '0') := by
    rw [List.take_append, List.take_replicate, Nat.min_eq_left (Nat.sub_le ..)]
  have hlen : ((f ++ List.replicate 8 (unit '0')).take 8).length = 8 := by simp
  rw [← fractionValue_append_zeros _ (8 - f.length), ← hpadded, fractionValue, hlen]

/-- A text that is read as `v` begins with a decimal for `v` shannons. -/
theorem exists_denotes_of_parseCkbAmount {s : JsString} {v : Nat} (h : parseCkbAmount s = .ok (v : Int)) :
    ∃ t, t <+: s ∧ Denotes t (v / 10 ^ 8) := by
  obtain ⟨w, f, hpieces, ⟨hne, hw, hf⟩, hfloor⟩ := parseCkbAmount_eq_ok h
  rw [floor_denoted w hf] at hfloor
  have hv : (v : ℚ) / 10 ^ 8 = numeralValue w + fractionValue (f.take 8) := by
    rw [fractionValue_take, Int.ofNat.inj hfloor]
    push_cast
    ring
  have hcut : Denotes (w ++ unit '.' :: f.take 8) (v / 10 ^ 8) := by
    rw [hv]
    exact .point hne hw (hf.of_subset (List.take_subset 8 f))
  cases hpieces with
  | one =>
    rw [hv, List.take_nil, fractionValue_nil, add_zero]
    exact ⟨s, List.prefix_refl s, .whole hne hw⟩
  | two =>
    refine ⟨_, ?_, hcut⟩
    rw [List.prefix_append_right_inj, List.cons_prefix_cons]
    exact ⟨rfl, List.take_prefix 8 f⟩
  | more =>
    refine ⟨_, ?_, hcut⟩
    rw [List.prefix_append_right_inj, List.cons_prefix_cons]
    exact ⟨rfl, (List.take_prefix 8 f).trans (List.prefix_append ..)⟩

/-- **Amounts shown are the amounts meant.** The text shown for `v` shannons reads back as `v`; it is a decimal for
that amount without a zero or a point to spare, and shorter than any other decimal for the amount, or any other text
that is read as it. -/
theorem formatCkb_shortest :
    (∀ v : Nat, parseCkbAmount (formatCkb v) = .ok (v : Int) ∧ Denotes (formatCkb v) (v / 10 ^ 8) ∧
      Canonical (formatCkb v) ∧
      (∀ s, Denotes s (v / 10 ^ 8) → s = formatCkb v ∨ (formatCkb v).length < s.length) ∧
      ∀ s, parseCkbAmount s = .ok (v : Int) → s = formatCkb v ∨ (formatCkb v).length < s.length) ∧
    ∀ v v' : Nat, formatCkb v = formatCkb v' → v = v' := by
  constructor
  · intro v
    have hshort : ∀ s, Denotes s (v / 10 ^ 8) → s = formatCkb v ∨ (formatCkb v).length < s.length :=
      fun s hs => (formatCkb_canonical v).shortest (formatCkb_denotes v) hs
    refine ⟨parseCkbAmount_formatCkb_natCast v, formatCkb_denotes v, formatCkb_canonical v, hshort, ?_⟩
    intro s hs
    obtain ⟨t, hts, ht⟩ := exists_denotes_of_parseCkbAmount hs
    have hle := hts.length_le
    rcases hshort t ht with rfl | hlt
    · rcases hle.eq_or_lt with heq | hlt
      · exact Or.inl (hts.eq_of_length heq).symm
      · exact Or.inr hlt
    · exact Or.inr (lt_of_lt_of_le hlt hle)
  · intro v v' h
    have hread := parseCkbAmount_formatCkb_natCast v
    rw [h] at hread
    exact Int.ofNat.inj (Result.ok_unique hread (parseCkbAmount_formatCkb_natCast v'))

example : formatCkb 1200000010 = lit "12.0000001" := by decide +kernel

end CkbDilithium.Sdk
