import CkbDilithium.Lib.Digits
import CkbDilithium.Sdk.Address

/-!
# `convertBits` regroups bits

The input is read as one number `N`, its values being the digits in base `2 ^ fromBits`. The
accumulator is `N` modulo `2 ^ 32` throughout, so its low bits are never wrong although the word
wraps around; the emitted groups are the digits of `N / 2 ^ bits` in base `2 ^ toBits`, where `bits`
low bits are still to be emitted (`RegroupInv`). With padding the result is the digits of
`N * 2 ^ p` for the `p` missing bits (`convertBits_pad`); without it the left-over bits must be fewer
than `fromBits` and zero (`convertBits_strict`).
-/

namespace CkbDilithium.Sdk

open Js

/-! ### The word operations as arithmetic -/

theorem maxValue_toNat {t : Nat} (ht : t < 32) : (shl 1#32 t - 1#32).toNat = 2 ^ t - 1 := by
  have hlt : 2 ^ t < 2 ^ 32 := Nat.pow_lt_pow_right (by decide) ht
  have hpos : 0 < 2 ^ t := Nat.two_pow_pos t
  rw [shl, Nat.mod_eq_of_lt ht, BitVec.toNat_sub, BitVec.toNat_shiftLeft]
  simp only [BitVec.toNat_ofNat, Nat.one_mod, Nat.shiftLeft_eq, one_mul]
  omega

theorem and_maxValue_toNat {t : Nat} (ht : t < 32) (x : JsInt32) :
    (x &&& (shl 1#32 t - 1#32)).toNat = x.toNat % 2 ^ t := by
  rw [BitVec.toNat_and, maxValue_toNat ht, Nat.and_two_pow_sub_one_eq_mod]

/-- A group inside the word does not see the sign. -/
theorem sar_and_maxValue {k t : Nat} (hk : k < 32) (ht : t < 32) (h : k + t ≤ 32) (x : JsInt32) :
    (sar x k &&& (shl 1#32 t - 1#32)).toNat = x.toNat / 2 ^ k % 2 ^ t := by
  rw [and_maxValue_toNat ht]
  apply Nat.eq_of_testBit_eq
  intro i
  rw [Nat.testBit_mod_two_pow, Nat.testBit_mod_two_pow, Nat.testBit_div_two_pow]
  by_cases hi : i < t
  · have hlsb : (sar x k).toNat.testBit i = (sar x k).getLsbD i := rfl
    have hx : x.toNat.testBit (k + i) = x.getLsbD (k + i) := rfl
    rw [hlsb, sar, Nat.mod_eq_of_lt hk, BitVec.getLsbD_sshiftRight, if_pos (by omega), Nat.add_comm i k, hx]
    rw [decide_eq_false (show ¬ 32 ≤ i by omega), Bool.not_false, Bool.true_and]
  · simp [hi]

theorem shl_and_maxValue {s t : Nat} (hs : s < 32) (ht : t < 32) (x : JsInt32) :
    (shl x s &&& (shl 1#32 t - 1#32)).toNat = x.toNat * 2 ^ s % 2 ^ t := by
  rw [and_maxValue_toNat ht, shl, Nat.mod_eq_of_lt hs, BitVec.toNat_shiftLeft, Nat.shiftLeft_eq]
  exact Nat.mod_mod_of_dvd _ (Nat.pow_dvd_pow 2 (by omega))

/-- Appending the bits of a value to the accumulator. -/
theorem shl_or_toNat {f : Nat} (hf : f < 32) {x v : JsInt32} (hv : v.toNat < 2 ^ f) :
    (shl x f ||| v).toNat = (x.toNat * 2 ^ f + v.toNat) % 2 ^ 32 := by
  rw [BitVec.toNat_or, shl, Nat.mod_eq_of_lt hf, BitVec.toNat_shiftLeft, Nat.shiftLeft_eq]
  have hsplit : 2 ^ 32 = 2 ^ (32 - f) * 2 ^ f := by rw [← pow_add]; congr 1; omega
  have hmod : x.toNat * 2 ^ f % 2 ^ 32 = 2 ^ f * (x.toNat % 2 ^ (32 - f)) := by
    rw [hsplit, Nat.mul_mod_mul_right, Nat.mul_comm]
  have hfit : 2 ^ f * (x.toNat % 2 ^ (32 - f)) + v.toNat < 2 ^ 32 := by
    have hlt : x.toNat % 2 ^ (32 - f) + 1 ≤ 2 ^ (32 - f) := Nat.mod_lt _ (Nat.two_pow_pos _)
    calc 2 ^ f * (x.toNat % 2 ^ (32 - f)) + v.toNat < 2 ^ f * (x.toNat % 2 ^ (32 - f) + 1) := by
          rw [mul_add]; omega
      _ ≤ 2 ^ f * 2 ^ (32 - f) := Nat.mul_le_mul_left _ hlt
      _ = 2 ^ 32 := by rw [hsplit, Nat.mul_comm]
  rw [hmod, ← Nat.two_pow_add_eq_or_of_lt hv, ← hmod]
  rw [← hmod] at hfit
  rw [Nat.add_mod, Nat.mod_eq_of_lt (lt_of_lt_of_le hv (Nat.pow_le_pow_right (by decide) hf.le)),
    Nat.mod_eq_of_lt hfit]

/-- The range check on a value. -/
theorem invalid_value_iff {f : Nat} (hf : f < 31) (v : JsInt32) :
    (v.toInt < 0 ∨ sar v f ≠ 0#32) ↔ ¬ v.toNat < 2 ^ f := by
  have hpow : 2 ^ f ≤ 2 ^ 31 := Nat.pow_le_pow_right (by decide) (by omega)
  by_cases hneg : v.toInt < 0
  · have hge : 2 ^ 31 ≤ v.toNat := by
      rw [BitVec.toInt_eq_toNat_cond] at hneg
      split_ifs at hneg <;> omega
    simp only [hneg, true_or, true_iff]
    omega
  · have hlt : v.toNat < 2 ^ 31 := by
      rw [BitVec.toInt_eq_toNat_cond] at hneg
      have := v.isLt
      split_ifs at hneg <;> omega
    have hmsb : v.msb = false := by
      rw [BitVec.msb_eq_decide]
      simpa using hlt
    simp only [hneg, false_or, sar, Nat.mod_eq_of_lt (show f < 32 by omega), ne_eq,
      BitVec.sshiftRight_eq_of_msb_false hmsb, ← BitVec.toNat_inj, BitVec.toNat_ushiftRight,
      Nat.shiftRight_eq_div_pow, BitVec.toNat_ofNat, Nat.zero_mod, Nat.div_eq_zero_iff]
    have := Nat.two_pow_pos f
    omega

/-! ### The loop invariant -/

/-- The numbers of a list of words. -/
def natValues (l : List JsInt32) : List Nat := l.map BitVec.toNat

@[simp] theorem natValues_length (l : List JsInt32) : (natValues l).length = l.length := List.length_map ..

theorem natValues_injective : Function.Injective natValues :=
  List.map_injective_iff.2 fun _ _ h => BitVec.eq_of_toNat_eq h

theorem forall_mem_natValues {l : List JsInt32} {P : Nat → Prop} :
    (∀ n ∈ natValues l, P n) ↔ ∀ v ∈ l, P v.toNat := by
  simp [natValues]

/-- After reading the number `N`, of `total` bits: all but `bits` low bits are emitted. -/
structure RegroupInv (t N total : Nat) (accumulator : JsInt32) (bits : Nat) (result : List JsInt32) : Prop where
  accumulator_eq : accumulator.toNat = N % 2 ^ 32
  value_eq : beVal (2 ^ t) (natValues result) = N / 2 ^ bits
  digits : ∀ r ∈ result, r.toNat < 2 ^ t
  count : t * result.length + bits = total

/-- One group is emitted. -/
theorem RegroupInv.emit {t N total bits : Nat} {accumulator : JsInt32} {result : List JsInt32}
    (ht : 0 < t) (ht32 : t < 32) (hbits : bits ≤ 32) (hge : t ≤ bits)
    (h : RegroupInv t N total accumulator bits result) :
    RegroupInv t N total accumulator (bits - t)
      (result ++ [sar accumulator (bits - t) &&& (shl 1#32 t - 1#32)]) := by
  have hgroup : (sar accumulator (bits - t) &&& (shl 1#32 t - 1#32)).toNat = N / 2 ^ (bits - t) % 2 ^ t := by
    rw [sar_and_maxValue (by omega) ht32 (by omega), h.accumulator_eq]
    apply Nat.eq_of_testBit_eq
    intro i
    simp only [Nat.testBit_mod_two_pow, Nat.testBit_div_two_pow]
    by_cases hi : i < t
    · simp [hi, show i + (bits - t) < 32 by omega]
    · simp [hi]
  refine ⟨h.accumulator_eq, ?_, ?_, ?_⟩
  · have hdiv : N / 2 ^ bits = N / 2 ^ (bits - t) / 2 ^ t := by
      rw [Nat.div_div_eq_div_mul, ← pow_add]
      congr 2
      omega
    rw [natValues, List.map_append, List.map_singleton, ← natValues, beVal_concat, h.value_eq, hgroup,
      hdiv, Nat.div_add_mod']
  · intro r hr
    rcases List.mem_append.1 hr with hr | hr
    · exact h.digits r hr
    · rw [List.mem_singleton.1 hr, hgroup]
      exact Nat.mod_lt _ (Nat.two_pow_pos t)
  · have hcount := h.count
    rw [List.length_append, List.length_singleton, Nat.mul_add, Nat.mul_one]
    omega

/-- The inner loop emits groups until fewer than `t` bits are left. -/
theorem emitGroups_inv {t N total : Nat} {accumulator : JsInt32} (ht : 0 < t) (ht32 : t < 32) :
    ∀ (fuel bits : Nat) (result : List JsInt32), bits ≤ fuel → bits ≤ 32 →
      RegroupInv t N total accumulator bits result →
      let out := emitGroups t accumulator (shl 1#32 t - 1#32) fuel bits result
      RegroupInv t N total accumulator out.1 out.2 ∧ out.1 < t := by
  intro fuel
  induction fuel with
  | zero =>
    intro bits result hfuel _ h
    exact ⟨h, by simp only [emitGroups]; omega⟩
  | succ fuel ih =>
    intro bits result hfuel hbits h
    rw [emitGroups]
    split_ifs with hge
    · exact ih _ _ (by omega) (by omega) (h.emit ht ht32 hbits hge)
    · exact ⟨h, by simpa using hge⟩

/-- One value is read. -/
theorem RegroupInv.read {f t N total bits : Nat} {accumulator v : JsInt32} {result : List JsInt32}
    (hf : f < 32) (hv : v.toNat < 2 ^ f) (h : RegroupInv t N total accumulator bits result) :
    RegroupInv t (N * 2 ^ f + v.toNat) (total + f) (shl accumulator f ||| v) (bits + f) result := by
  refine ⟨?_, ?_, h.digits, ?_⟩
  · rw [shl_or_toNat hf hv, h.accumulator_eq, Nat.add_mod, Nat.mod_mul_mod, ← Nat.add_mod]
  · rw [h.value_eq, pow_add, Nat.mul_comm (2 ^ bits), ← Nat.div_div_eq_div_mul, Nat.mul_comm N,
      Nat.mul_add_div (Nat.two_pow_pos f), Nat.div_eq_of_lt hv, Nat.add_zero]
  · have hcount := h.count
    omega

/-- The whole loop. -/
theorem convertLoop_inv {f t : Nat} (hf : f ≤ 8) (ht : 0 < t) (ht8 : t ≤ 8) :
    ∀ (data : List JsInt32) (N total bits : Nat) (accumulator : JsInt32) (result : List JsInt32),
      (∀ v ∈ data, v.toNat < 2 ^ f) → bits < t → RegroupInv t N total accumulator bits result →
      ∃ accumulator' bits' result',
        convertLoop f t (shl 1#32 t - 1#32) data accumulator bits result =
          .ok (accumulator', bits', result') ∧ bits' < t ∧
        RegroupInv t (N * 2 ^ (f * data.length) + beVal (2 ^ f) (natValues data))
          (total + f * data.length) accumulator' bits' result' := by
  intro data
  induction data with
  | nil =>
    intro N total bits accumulator result _ hbits h
    exact ⟨accumulator, bits, result, rfl, hbits, by simpa [natValues] using h⟩
  | cons v data ih =>
    intro N total bits accumulator result hdata hbits h
    have hv : v.toNat < 2 ^ f := hdata v (by simp)
    have hvalid : ¬ (v.toInt < 0 ∨ sar v f ≠ 0#32) := by
      rw [invalid_value_iff (by omega)]
      exact not_not.2 hv
    obtain ⟨hinv, hlt⟩ := emitGroups_inv ht (by omega) (bits + f) (bits + f) result le_rfl (by omega)
      (h.read (by omega) hv)
    obtain ⟨acc', bits', result', hrun, hbits', hinv'⟩ := ih _ _ _ _ _ (fun w hw => hdata w (by simp [hw])) hlt hinv
    refine ⟨acc', bits', result', ?_, hbits', ?_⟩
    · rw [convertLoop, if_neg hvalid]
      exact hrun
    · have hN : (N * 2 ^ f + v.toNat) * 2 ^ (f * data.length) + beVal (2 ^ f) (natValues data) =
          N * 2 ^ (f * (v :: data).length) + beVal (2 ^ f) (natValues (v :: data)) := by
        rw [show natValues (v :: data) = v.toNat :: natValues data from rfl, beVal_cons,
          natValues_length, List.length_cons, Nat.mul_add, pow_add, ← pow_mul]
        ring
      have htotal : total + f + f * data.length = total + f * (v :: data).length := by
        rw [List.length_cons]
        ring
      rwa [hN, htotal] at hinv'

/-- The loop from the empty state. -/
theorem convertLoop_start {f t : Nat} (hf : f ≤ 8) (ht : 0 < t) (ht8 : t ≤ 8) {data : List JsInt32}
    (hdata : ∀ v ∈ data, v.toNat < 2 ^ f) :
    ∃ accumulator bits result,
      convertLoop f t (shl 1#32 t - 1#32) data 0#32 0 [] = .ok (accumulator, bits, result) ∧ bits < t ∧
      RegroupInv t (beVal (2 ^ f) (natValues data)) (f * data.length) accumulator bits result := by
  have hstart : RegroupInv t 0 0 0#32 0 [] := ⟨rfl, by simp [natValues], by simp, rfl⟩
  simpa using convertLoop_inv hf ht ht8 data 0 0 0 0#32 [] hdata ht hstart

/-- The left-over bits, moved to the top of a group. -/
theorem RegroupInv.leftover {t N total bits : Nat} {accumulator : JsInt32} {result : List JsInt32}
    (ht8 : t ≤ 8) (hbits : bits < t) (h : RegroupInv t N total accumulator bits result) :
    (shl accumulator (t - bits) &&& (shl 1#32 t - 1#32)).toNat = N % 2 ^ bits * 2 ^ (t - bits) := by
  rw [shl_and_maxValue (by omega) (by omega), h.accumulator_eq]
  have hsplit : 2 ^ t = 2 ^ bits * 2 ^ (t - bits) := by rw [← pow_add]; congr 1; omega
  rw [hsplit, Nat.mul_mod_mul_right, Nat.mod_mod_of_dvd _ (Nat.pow_dvd_pow 2 (by omega))]

/-! ### The two modes -/

/-- **With padding** the result is the digits of the input number, `p` zero bits appended. -/
theorem convertBits_pad {f t : Nat} (hf : f ≤ 8) (ht : 0 < t) (ht8 : t ≤ 8) {data : List JsInt32}
    (hdata : ∀ v ∈ data, v.toNat < 2 ^ f) :
    ∃ result p, convertBits data f t true = .ok result ∧ p < t ∧
      t * result.length = f * data.length + p ∧ (∀ r ∈ result, r.toNat < 2 ^ t) ∧
      beVal (2 ^ t) (natValues result) = beVal (2 ^ f) (natValues data) * 2 ^ p := by
  obtain ⟨acc, bits, result, hrun, hbits, hinv⟩ := convertLoop_start hf ht ht8 hdata
  have hcount := hinv.count
  by_cases hzero : bits = 0
  · subst hzero
    refine ⟨result, 0, ?_, ht, by omega, hinv.digits, ?_⟩
    · simp only [convertBits, hrun, Result.ok_bind, if_true]
      rfl
    · simpa using hinv.value_eq
  · have hlast := hinv.leftover ht8 hbits
    set N := beVal (2 ^ f) (natValues data)
    refine ⟨result ++ [shl acc (t - bits) &&& (shl 1#32 t - 1#32)], t - bits, ?_, by omega, ?_, ?_, ?_⟩
    · simp only [convertBits, hrun, Result.ok_bind, if_true]
      rw [if_pos (by omega)]
      rfl
    · rw [List.length_append, List.length_singleton, Nat.mul_add, Nat.mul_one]
      omega
    · intro r hr
      rcases List.mem_append.1 hr with hr | hr
      · exact hinv.digits r hr
      · rw [List.mem_singleton.1 hr, and_maxValue_toNat (by omega)]
        exact Nat.mod_lt _ (Nat.two_pow_pos t)
    · have hsplit : 2 ^ t = 2 ^ bits * 2 ^ (t - bits) := by rw [← pow_add]; congr 1; omega
      rw [natValues, List.map_append, List.map_singleton, ← natValues, beVal_concat, hlast, hinv.value_eq,
        hsplit, ← Nat.mul_assoc, ← Nat.add_mul, Nat.div_add_mod']

/-- **Without padding** the left-over bits must be fewer than `f` and zero. -/
theorem convertBits_strict {f t : Nat} (hf : f ≤ 8) (ht : 0 < t) (ht8 : t ≤ 8) {data : List JsInt32}
    (hdata : ∀ v ∈ data, v.toNat < 2 ^ f) :
    ∃ result bits, bits < t ∧ t * result.length + bits = f * data.length ∧
      (∀ r ∈ result, r.toNat < 2 ^ t) ∧
      beVal (2 ^ t) (natValues result) = beVal (2 ^ f) (natValues data) / 2 ^ bits ∧
      convertBits data f t false =
        if f ≤ bits ∨ beVal (2 ^ f) (natValues data) % 2 ^ bits ≠ 0 then
          raise (lit "invalid padding in bit conversion")
        else .ok result := by
  obtain ⟨acc, bits, result, hrun, hbits, hinv⟩ := convertLoop_start hf ht ht8 hdata
  refine ⟨result, bits, hbits, hinv.count, hinv.digits, hinv.value_eq, ?_⟩
  have hlast := hinv.leftover ht8 hbits
  set N := beVal (2 ^ f) (natValues data)
  have hzero : shl acc (t - bits) &&& (shl 1#32 t - 1#32) ≠ 0#32 ↔ N % 2 ^ bits ≠ 0 := by
    rw [ne_eq, ← BitVec.toNat_inj, hlast]
    simp
  simp only [convertBits, hrun, Result.ok_bind, hzero, ge_iff_le]
  rfl

end CkbDilithium.Sdk
