import CkbDilithium.Lib.LinearRegister
import CkbDilithium.Address.Regroup

/-!
# The bech32m checksum

`polymod` runs a linear register of 30 bits (`polymod_eq_run`) whose step `feedback` is additive in
exclusive or and injective: the low bits of the generators are independent, so the five bits shifted
out can be recovered. On six words from the zero state the register only shifts, so a checksum is
valid for given words exactly when it is the created one (`verifyChecksum_append_iff`), and valid
strings never differ in a single symbol or in two exchanged neighbours
(`eq_of_verifyChecksum_substitute`, `eq_of_verifyChecksum_exchange`).
-/

namespace CkbDilithium.Sdk

open Js LinearRegister

/-! ### The register -/

/-- The 30-bit register, a group under exclusive or. -/
@[ext] structure Register where
  bits : BitVec 30

namespace Register

instance : Zero Register := ⟨⟨0#30⟩⟩
instance : Add Register := ⟨fun a b => ⟨a.bits ^^^ b.bits⟩⟩
instance : Neg Register := ⟨id⟩

@[simp] theorem zero_bits : (0 : Register).bits = 0#30 := rfl

@[simp] theorem add_bits (a b : Register) : (a + b).bits = a.bits ^^^ b.bits := rfl

instance : AddCommGroup Register where
  add_assoc a b c := Register.ext (BitVec.xor_assoc ..)
  zero_add a := Register.ext BitVec.zero_xor
  add_zero a := Register.ext BitVec.xor_zero
  nsmul := nsmulRec
  zsmul := zsmulRec
  neg_add_cancel a := Register.ext BitVec.xor_self
  add_comm a b := Register.ext (BitVec.xor_comm ..)

@[simp] theorem sub_bits (a b : Register) : (a - b).bits = a.bits ^^^ b.bits := rfl

end Register

/-- A generator enters the register when its bit was shifted out. -/
def tap (b : Bool) (g : BitVec 30) : BitVec 30 := if b then g else 0#30

/-- One step without a symbol: five bits up, the generators of the bits shifted out added. -/
def feedback (c : BitVec 30) : BitVec 30 :=
  c <<< 5 ^^^ tap (c.getLsbD 25) 0x3b6a57b2#30 ^^^ tap (c.getLsbD 26) 0x26508e6d#30 ^^^
    tap (c.getLsbD 27) 0x1ea119fa#30 ^^^ tap (c.getLsbD 28) 0x3d4233dd#30 ^^^ tap (c.getLsbD 29) 0x2a1462b3#30

theorem tap_xor (a b : Bool) (g : BitVec 30) : tap (a ^^ b) g = tap a g ^^^ tap b g := by
  cases a <;> cases b <;> simp [tap]

theorem feedback_xor (c d : BitVec 30) : feedback (c ^^^ d) = feedback c ^^^ feedback d := by
  simp only [feedback, BitVec.getLsbD_xor, tap_xor, BitVec.shiftLeft_xor_distrib]
  ac_rfl

/-- The step as an additive map. -/
def feedbackHom : Register →+ Register :=
  AddMonoidHom.mk' (fun c => ⟨feedback c.bits⟩) fun c d => Register.ext (feedback_xor c.bits d.bits)

@[simp] theorem feedbackHom_bits (c : Register) : (feedbackHom c).bits = feedback c.bits := rfl

/-- The low five bits of a step determine the five bits shifted out. -/
theorem taps_eq_zero : ∀ b₀ b₁ b₂ b₃ b₄ : Bool,
    (∀ i < 5, (tap b₀ 0x3b6a57b2#30 ^^^ tap b₁ 0x26508e6d#30 ^^^ tap b₂ 0x1ea119fa#30 ^^^
      tap b₃ 0x3d4233dd#30 ^^^ tap b₄ 0x2a1462b3#30).getLsbD i = false) →
    b₀ = false ∧ b₁ = false ∧ b₂ = false ∧ b₃ = false ∧ b₄ = false := by decide

theorem feedback_eq_zero {c : BitVec 30} (h : feedback c = 0#30) : c = 0#30 := by
  have hlow : ∀ i < 5, (tap (c.getLsbD 25) 0x3b6a57b2#30 ^^^ tap (c.getLsbD 26) 0x26508e6d#30 ^^^
      tap (c.getLsbD 27) 0x1ea119fa#30 ^^^ tap (c.getLsbD 28) 0x3d4233dd#30 ^^^
      tap (c.getLsbD 29) 0x2a1462b3#30).getLsbD i = false := by
    intro i hi
    have hbit := congrArg (fun x : BitVec 30 => x.getLsbD i) h
    simpa [feedback, BitVec.getLsbD_xor, BitVec.getLsbD_shiftLeft, hi] using hbit
  obtain ⟨h25, h26, h27, h28, h29⟩ := taps_eq_zero _ _ _ _ _ hlow
  have hshift : c <<< 5 = 0#30 := by
    rw [feedback, h25, h26, h27, h28, h29] at h
    simpa only [tap, Bool.false_eq_true, if_false, BitVec.xor_zero] using h
  apply BitVec.eq_of_getLsbD_eq
  intro i hi
  by_cases hlt : i < 25
  · -- a bit below 25 is still in the register, five places up
    have hbit := congrArg (fun x : BitVec 30 => x.getLsbD (i + 5)) hshift
    simp only [BitVec.getLsbD_shiftLeft, BitVec.getLsbD_zero, Nat.add_sub_cancel] at hbit
    rw [decide_eq_true (show i + 5 < 30 by omega), decide_eq_false (show ¬ i + 5 < 5 by omega)] at hbit
    simpa using hbit
  · interval_cases i <;> simp_all

theorem feedbackHom_injective : Function.Injective feedbackHom :=
  (injective_iff_map_eq_zero feedbackHom).2 fun _ h =>
    Register.ext (feedback_eq_zero (congrArg Register.bits h))

/-! ### `polymod` runs the register -/

def toRegister (v : JsInt32) : Register := ⟨v.setWidth 30⟩

theorem setWidth_toRegister {v : JsInt32} (h : v.toNat < 2 ^ 30) :
    (toRegister v).bits.setWidth 32 = v := by
  apply BitVec.eq_of_toNat_eq
  have := v.isLt
  simp only [toRegister, BitVec.toNat_setWidth]
  omega

theorem top_bit {c : BitVec 30} {i : Nat} (hi : i < 5) :
    (sar (sar (c.setWidth 32) 25) i &&& 1#32 ≠ 0#32) ↔ c.getLsbD (25 + i) = true := by
  have hbit : (sar (sar (c.setWidth 32) 25) i).getLsbD 0 = c.getLsbD (25 + i) := by
    simp only [sar, Nat.mod_eq_of_lt (show i < 32 by omega), show 25 % 32 = 25 from rfl,
      BitVec.getLsbD_sshiftRight, BitVec.getLsbD_setWidth]
    simp [show i < 32 by omega, show 25 + i < 32 by omega, show 25 + i < 30 by omega]
  rw [BitVec.and_one_eq_setWidth_ofBool_getLsbD, hbit]
  cases c.getLsbD (25 + i) <;> decide

theorem setWidth_shift (c : BitVec 30) :
    shl (c.setWidth 32 &&& 0x1ffffff#32) 5 = (c <<< 5).setWidth 32 := by
  apply BitVec.eq_of_toNat_eq
  have hmask : (0x1ffffff#32).toNat = 2 ^ 25 - 1 := rfl
  have := c.isLt
  simp only [shl, show 5 % 32 = 5 from rfl, BitVec.toNat_shiftLeft, BitVec.toNat_and, hmask,
    Nat.and_two_pow_sub_one_eq_mod, BitVec.toNat_setWidth, Nat.shiftLeft_eq]
  omega

theorem ite_xor_eq (b : Bool) (x : JsInt32) (g : BitVec 30) :
    (if b = true then x ^^^ g.setWidth 32 else x) = x ^^^ (tap b g).setWidth 32 := by
  cases b <;> simp [tap]

theorem polymodStep_eq (c w : BitVec 30) :
    polymodStep (c.setWidth 32) (w.setWidth 32) = (feedback c ^^^ w).setWidth 32 := by
  have hgen : generators = [(0x3b6a57b2#30).setWidth 32, (0x26508e6d#30).setWidth 32,
    (0x1ea119fa#30).setWidth 32, (0x3d4233dd#30).setWidth 32, (0x2a1462b3#30).setWidth 32] := by decide
  simp only [polymodStep, hgen, List.zipIdx_cons, List.zipIdx_nil, List.foldl_cons, List.foldl_nil,
    Nat.zero_add, Nat.reduceAdd, top_bit (show 0 < 5 by decide), top_bit (show 1 < 5 by decide),
    top_bit (show 2 < 5 by decide), top_bit (show 3 < 5 by decide), top_bit (show 4 < 5 by decide),
    ite_xor_eq, setWidth_shift, feedback, BitVec.setWidth_xor]
  ac_rfl

theorem foldl_polymodStep (c : Register) (ws : List Register) :
    (ws.map fun w => w.bits.setWidth 32).foldl polymodStep (c.bits.setWidth 32) =
      (run feedbackHom c ws).bits.setWidth 32 := by
  induction ws generalizing c with
  | nil => rfl
  | cons w ws ih =>
    rw [List.map_cons, List.foldl_cons, polymodStep_eq, run_cons, ← ih, Register.add_bits,
      feedbackHom_bits]

/-- The register after the values, from the state `1`. -/
def registerAfter (values : List JsInt32) : Register := run feedbackHom ⟨1#30⟩ (values.map toRegister)

theorem registerAfter_append (l m : List JsInt32) :
    registerAfter (l ++ m) = run feedbackHom (registerAfter l) (m.map toRegister) := by
  rw [registerAfter, List.map_append, run_append, registerAfter]

theorem polymod_eq_run {values : List JsInt32} (h : ∀ v ∈ values, v.toNat < 2 ^ 30) :
    polymod values = (registerAfter values).bits.toNat := by
  have hvalues : (values.map toRegister).map (fun w => w.bits.setWidth 32) = values := by
    rw [List.map_map]
    conv_rhs => rw [← List.map_id values]
    exact List.map_congr_left fun v hv => setWidth_toRegister (h v hv)
  have hone : (1#32 : JsInt32) = (1#30).setWidth 32 := by decide
  have hrun := foldl_polymodStep ⟨1#30⟩ (values.map toRegister)
  rw [hvalues, ← hone] at hrun
  have hlt := (registerAfter values).bits.isLt
  rw [polymod, hrun, BitVec.toNat_setWidth, ← registerAfter]
  omega

/-! ### Five-bit words -/

/-- Every value is a five-bit word. -/
def Words (l : List JsInt32) : Prop := ∀ v ∈ l, v.toNat < 32

theorem Words.append {l m : List JsInt32} (hl : Words l) (hm : Words m) : Words (l ++ m) := by
  intro v hv
  rcases List.mem_append.1 hv with hv | hv
  · exact hl v hv
  · exact hm v hv

theorem hrpExpand_lt (hrp : JsString) : ∀ v ∈ hrpExpand hrp, v.toNat < 2 ^ 30 := by
  have hcode : ∀ c, (charCode c).toNat = c.toNat := fun c => by
    have := c.toNat_lt
    simp only [charCode, BitVec.toNat_ofNat]
    omega
  intro v hv
  simp only [hrpExpand, List.mem_append, List.mem_map, List.mem_singleton] at hv
  rcases hv with (⟨c, -, rfl⟩ | rfl) | ⟨c, -, rfl⟩
  · have hc := c.toNat_lt
    have hmsb : (charCode c).msb = false := by
      rw [BitVec.msb_eq_decide, hcode]
      simp
      omega
    rw [sar, BitVec.sshiftRight_eq_of_msb_false hmsb, BitVec.toNat_ushiftRight, hcode,
      Nat.shiftRight_eq_div_pow]
    exact lt_of_le_of_lt (Nat.div_le_self _ _) (by omega)
  · decide
  · rw [BitVec.toNat_and]
    exact lt_of_le_of_lt Nat.and_le_right (by decide)

theorem polymod_hrp {hrp : JsString} {data : List JsInt32} (h : Words data) :
    polymod (hrpExpand hrp ++ data) = (registerAfter (hrpExpand hrp ++ data)).bits.toNat := by
  apply polymod_eq_run
  intro v hv
  rcases List.mem_append.1 hv with hv | hv
  · exact hrpExpand_lt hrp v hv
  · exact lt_of_lt_of_le (h v hv) (by decide)

theorem toRegister_toNat {v : JsInt32} (h : v.toNat < 32) : (toRegister v).bits.toNat = v.toNat := by
  simp only [toRegister, BitVec.toNat_setWidth]
  omega

theorem toRegister_inj {v w : JsInt32} (hv : v.toNat < 32) (hw : w.toNat < 32)
    (h : toRegister v = toRegister w) : v = w := by
  apply BitVec.eq_of_toNat_eq
  rw [← toRegister_toNat hv, ← toRegister_toNat hw, h]

/-- As long as nothing is shifted out, a step only shifts. -/
theorem feedback_of_lt {c : BitVec 30} (hc : c.toNat < 2 ^ 25) : feedback c = c <<< 5 := by
  have hbit : ∀ i, c.getLsbD (25 + i) = false := fun i =>
    Nat.testBit_lt_two_pow (lt_of_lt_of_le hc (Nat.pow_le_pow_right (by decide) (by omega)))
  rw [feedback, hbit 0, hbit 1, hbit 2, hbit 3, hbit 4]
  simp only [tap, Bool.false_eq_true, if_false, BitVec.xor_zero]

/-- Such a step appends a digit in base 32. -/
theorem feedback_add_toNat {c w : BitVec 30} (hc : c.toNat < 2 ^ 25) (hw : w.toNat < 32) :
    (feedback c ^^^ w).toNat = c.toNat * 32 + w.toNat := by
  have hshift : (c <<< 5).toNat = 2 ^ 5 * c.toNat := by
    rw [BitVec.toNat_shiftLeft, Nat.shiftLeft_eq]
    omega
  rw [feedback_of_lt hc, BitVec.toNat_xor, hshift, Nat.mul_comm c.toNat, show (32 : Nat) = 2 ^ 5 from rfl,
    Nat.two_pow_add_eq_or_of_lt hw]
  apply Nat.eq_of_testBit_eq
  intro i
  rw [Nat.testBit_xor, Nat.testBit_or, Nat.testBit_two_pow_mul]
  by_cases hi : 5 ≤ i
  · have hpow : 2 ^ 5 ≤ 2 ^ i := Nat.pow_le_pow_right (by decide) hi
    have hwi : w.toNat.testBit i = false := Nat.testBit_lt_two_pow (by omega)
    simp [hwi]
  · simp [hi]

/-- From the zero state, up to six words are read as digits in base 32. -/
theorem run_zero_toNat {cs : List JsInt32} (hlen : cs.length ≤ 6) (hcs : Words cs) :
    (run feedbackHom 0 (cs.map toRegister)).bits.toNat = beVal 32 (natValues cs) := by
  induction cs using List.reverseRecOn with
  | nil => rfl
  | append_singleton cs w ih =>
    have hlen' : cs.length ≤ 5 := by simp at hlen; omega
    have hcs' : Words cs := fun v hv => hcs v (by simp [hv])
    have hw : w.toNat < 32 := hcs w (by simp)
    have hval := ih (by omega) hcs'
    have hlt : beVal 32 (natValues cs) < 2 ^ 25 := by
      have hbound : beVal 32 (natValues cs) < 32 ^ (natValues cs).length :=
        beVal_lt (forall_mem_natValues.2 hcs')
      rw [natValues_length] at hbound
      exact lt_of_lt_of_le hbound (le_trans (Nat.pow_le_pow_right (by decide) hlen') (by decide))
    rw [List.map_append, run_append, natValues, List.map_append, List.map_singleton, List.map_singleton,
      beVal_concat, ← natValues, ← hval, ← toRegister_toNat hw]
    exact feedback_add_toNat (by rw [hval]; exact hlt) (by rw [toRegister_toNat hw]; exact hw)

/-! ### Creating and verifying -/

/-- The value the checksum words must spell. -/
def checksumValue (hrp : JsString) (data : List JsInt32) : BitVec 30 :=
  (registerAfter (hrpExpand hrp ++ data ++ List.replicate 6 0#32)).bits ^^^ 0x2bc830a3#30

theorem natValues_createChecksum {hrp : JsString} {data : List JsInt32} (h : Words data) :
    natValues (createChecksum hrp data) = beDigits 32 6 (checksumValue hrp data).toNat := by
  have hzeros : Words (List.replicate 6 0#32) := by
    intro v hv
    rw [List.eq_of_mem_replicate hv]
    decide
  have hpoly : polymod (hrpExpand hrp ++ (data ++ List.replicate 6 0#32)) =
      (registerAfter (hrpExpand hrp ++ (data ++ List.replicate 6 0#32))).bits.toNat :=
    polymod_hrp (h.append hzeros)
  have hmod : BitVec.ofNat 32 (polymod (hrpExpand hrp ++ data ++ [0#32, 0#32, 0#32, 0#32, 0#32, 0#32])) ^^^
      bech32mConst = (checksumValue hrp data).setWidth 32 := by
    rw [← List.append_assoc] at hpoly
    have hrep : List.replicate 6 (0#32 : JsInt32) = [0#32, 0#32, 0#32, 0#32, 0#32, 0#32] := rfl
    rw [hrep] at hpoly
    rw [hpoly, checksumValue, BitVec.setWidth_xor, hrep]
    congr 1
    apply BitVec.eq_of_toNat_eq
    simp
  have hmask : (31#32 : JsInt32) = shl 1#32 5 - 1#32 := by decide
  have hdigit : ∀ i < 6, (sar ((checksumValue hrp data).setWidth 32) (5 * (5 - i)) &&& 31#32).toNat =
      (checksumValue hrp data).toNat / 2 ^ (5 * (5 - i)) % 2 ^ 5 := by
    intro i hi
    have hlt := (checksumValue hrp data).isLt
    rw [hmask, sar_and_maxValue (by omega) (by omega) (by omega), BitVec.toNat_setWidth,
      Nat.mod_eq_of_lt (show (checksumValue hrp data).toNat < 2 ^ 32 by omega)]
  simp only [createChecksum, hmod]
  rw [natValues, List.map_map]
  refine (List.map_congr_left fun i hi => hdigit i (List.mem_range.1 hi)).trans ?_
  simp [beDigits, List.range_succ, Nat.div_div_eq_div_mul]

theorem createChecksum_length (hrp : JsString) (data : List JsInt32) :
    (createChecksum hrp data).length = 6 := by
  simp [createChecksum]

theorem createChecksum_words {hrp : JsString} {data : List JsInt32} (h : Words data) :
    Words (createChecksum hrp data) := by
  have hlt := beDigits_lt (b := 32) (by decide) 6 (checksumValue hrp data).toNat
  rw [← natValues_createChecksum h] at hlt
  exact forall_mem_natValues.1 hlt

theorem verifyChecksum_iff {hrp : JsString} {data : List JsInt32} (h : Words data) :
    verifyChecksum hrp data = true ↔
      registerAfter (hrpExpand hrp ++ data) = ⟨0x2bc830a3#30⟩ := by
  have hconst : bech32mConst.toNat = (0x2bc830a3#30).toNat := by decide
  rw [verifyChecksum, beq_iff_eq, polymod_hrp h, hconst]
  exact ⟨fun heq => Register.ext (BitVec.eq_of_toNat_eq heq), fun heq => by rw [heq]⟩

/-- **Exactly one checksum is valid for given words.** -/
theorem verifyChecksum_append_iff {hrp : JsString} {data cs : List JsInt32} (hdata : Words data)
    (hcs : Words cs) (hlen : cs.length = 6) :
    verifyChecksum hrp (data ++ cs) = true ↔ cs = createChecksum hrp data := by
  -- the run on the checksum is the run on six zeros plus the value the checksum spells
  have hrun : registerAfter (hrpExpand hrp ++ (data ++ cs)) =
      registerAfter (hrpExpand hrp ++ data ++ List.replicate 6 0#32) +
        run feedbackHom 0 (cs.map toRegister) := by
    have hzero : toRegister 0#32 = 0 := rfl
    rw [← List.append_assoc, registerAfter_append, registerAfter_append (hrpExpand hrp ++ data),
      run_eq_add, List.map_replicate, hzero, List.length_map, hlen]
  have hvalue : verifyChecksum hrp (data ++ cs) = true ↔
      run feedbackHom 0 (cs.map toRegister) = ⟨checksumValue hrp data⟩ := by
    have hsub : (⟨checksumValue hrp data⟩ : Register) = ⟨0x2bc830a3#30⟩ -
        registerAfter (hrpExpand hrp ++ data ++ List.replicate 6 0#32) :=
      Register.ext (BitVec.xor_comm ..)
    rw [verifyChecksum_iff (hdata.append hcs), hrun, hsub, eq_sub_iff_add_eq']
  have hdigits : beVal 32 (natValues (createChecksum hrp data)) = (checksumValue hrp data).toNat := by
    rw [natValues_createChecksum hdata]
    exact beVal_beDigits (by decide) (lt_of_lt_of_le (checksumValue hrp data).isLt (by decide))
  rw [hvalue]
  constructor
  · intro h
    apply natValues_injective
    apply beVal_inj (b := 32) (by simp [hlen, createChecksum_length]) (forall_mem_natValues.2 hcs)
      (forall_mem_natValues.2 (createChecksum_words hdata))
    rw [← run_zero_toNat hlen.le hcs, h, hdigits]
  · rintro rfl
    apply Register.ext
    apply BitVec.eq_of_toNat_eq
    rw [run_zero_toNat hlen.le hcs, hdigits]

/-! ### Detected errors -/

/-- Valid strings do not differ in one symbol. -/
theorem eq_of_verifyChecksum_substitute {hrp : JsString} {xs ys : List JsInt32} {a b : JsInt32}
    (ha : Words (xs ++ a :: ys)) (hb : Words (xs ++ b :: ys))
    (hva : verifyChecksum hrp (xs ++ a :: ys) = true) (hvb : verifyChecksum hrp (xs ++ b :: ys) = true) :
    a = b := by
  have hrun := ((verifyChecksum_iff ha).1 hva).trans ((verifyChecksum_iff hb).1 hvb).symm
  rw [registerAfter_append, registerAfter_append, List.map_append, List.map_append, List.map_cons,
    List.map_cons] at hrun
  exact toRegister_inj (ha a (by simp)) (hb b (by simp))
    (eq_of_run_substitute feedbackHom_injective _ _ hrun)

/-- Valid strings do not differ by an exchange of neighbours. -/
theorem eq_of_verifyChecksum_exchange {hrp : JsString} {xs ys : List JsInt32} {a b : JsInt32}
    (hab : Words (xs ++ a :: b :: ys)) (hba : Words (xs ++ b :: a :: ys))
    (hvab : verifyChecksum hrp (xs ++ a :: b :: ys) = true)
    (hvba : verifyChecksum hrp (xs ++ b :: a :: ys) = true) : a = b := by
  have hrun := ((verifyChecksum_iff hab).1 hvab).trans ((verifyChecksum_iff hba).1 hvba).symm
  rw [registerAfter_append, registerAfter_append, List.map_append, List.map_append, List.map_cons,
    List.map_cons, List.map_cons, List.map_cons] at hrun
  have hfixed := fixed_of_run_exchange feedbackHom_injective _ _ hrun
  have ha : a.toNat < 32 := hab a (by simp)
  have hb : b.toNat < 32 := hab b (by simp)
  -- the difference is a five-bit word, so a step moves it up five places
  have hlt : (toRegister a - toRegister b).bits.toNat < 2 ^ 5 := by
    rw [Register.sub_bits, BitVec.toNat_xor]
    exact Nat.xor_lt_two_pow (by rw [toRegister_toNat ha]; exact ha) (by rw [toRegister_toNat hb]; exact hb)
  have hstep := feedback_add_toNat (c := (toRegister a - toRegister b).bits) (w := 0#30) (by omega) (by decide)
  rw [BitVec.xor_zero, ← feedbackHom_bits, hfixed] at hstep
  have hzero : toRegister a - toRegister b = 0 := by
    apply Register.ext
    apply BitVec.eq_of_toNat_eq
    simp only [BitVec.toNat_ofNat, Nat.zero_mod, Register.zero_bits] at hstep ⊢
    omega
  exact toRegister_inj ha hb (sub_eq_zero.1 hzero)

end CkbDilithium.Sdk
