import CkbDilithium.Lib.Distance
import CkbDilithium.Address.Typo

/-!
# Up to three wrong symbols are rejected

Read as a polynomial over the field of 32 elements, the register holds a remainder modulo the
generator of the checksum. The generator has the consecutive roots `β ^ 24`, `β ^ 25` and `β ^ 26` in the field of
1024 elements, where `β` is a root of `x ^ 10 + x ^ 8 + x ^ 5 + x + 1`: evaluating there turns the step of the register
into a multiplication (`evaluate_feedback`). The powers of `β` run through all nonzero elements, so that
`LinearRegister.Roots` gives the distance of the code: up to 1023 symbols, the network letter and a data
part of at most 1022 characters.
-/

namespace CkbDilithium.Sdk

open Js LinearRegister

/-! ### The field of 1024 elements -/

/-- An element of the field, as the coefficients of a polynomial in `β`; a group under exclusive or. -/
@[ext] structure Syndrome where
  bits : BitVec 10

namespace Syndrome

instance : Zero Syndrome := ⟨⟨0#10⟩⟩
instance : Add Syndrome := ⟨fun a b => ⟨a.bits ^^^ b.bits⟩⟩
instance : Neg Syndrome := ⟨id⟩

instance : AddCommGroup Syndrome where
  add_assoc a b c := Syndrome.ext (BitVec.xor_assoc ..)
  zero_add a := Syndrome.ext BitVec.zero_xor
  add_zero a := Syndrome.ext BitVec.xor_zero
  nsmul := nsmulRec
  zsmul := zsmulRec
  neg_add_cancel a := Syndrome.ext BitVec.xor_self
  add_comm a b := Syndrome.ext (BitVec.xor_comm ..)

end Syndrome

/-- The value `g` when the bit is set. -/
def coefficient (b : Bool) (g : BitVec 10) : BitVec 10 := if b then g else 0#10

theorem coefficient_xor (a b : Bool) (g : BitVec 10) :
    coefficient (a ^^ b) g = coefficient a g ^^^ coefficient b g := by
  cases a <;> cases b <;> simp [coefficient]

/-- Multiplication by `β`. -/
def timesBeta (v : BitVec 10) : BitVec 10 := v <<< 1 ^^^ coefficient (v.getLsbD 9) 0x123#10

theorem timesBeta_xor (v w : BitVec 10) : timesBeta (v ^^^ w) = timesBeta v ^^^ timesBeta w := by
  simp only [timesBeta, BitVec.getLsbD_xor, coefficient_xor, BitVec.shiftLeft_xor_distrib]
  ac_rfl

theorem iterate_timesBeta_xor (k : Nat) (v w : BitVec 10) :
    timesBeta^[k] (v ^^^ w) = timesBeta^[k] v ^^^ timesBeta^[k] w := by
  induction k generalizing v w with
  | zero => rfl
  | succ k ih =>
    rw [Function.iterate_succ_apply, Function.iterate_succ_apply, Function.iterate_succ_apply, timesBeta_xor, ih]

theorem timesBeta_injective : Function.Injective timesBeta := by
  have hzero : ∀ v, timesBeta v = 0#10 → v = 0#10 := by decide +kernel
  intro v w h
  have hsum := hzero (v ^^^ w) (by rw [timesBeta_xor, h, BitVec.xor_self])
  exact BitVec.xor_eq_zero_iff.1 hsum

def timesBetaHom : AddMonoid.End Syndrome :=
  AddMonoidHom.mk' (fun c => ⟨timesBeta c.bits⟩) fun c d => Syndrome.ext (timesBeta_xor c.bits d.bits)

/-- The elements `v`, `β v`, … as the bits of a number. -/
def orbitMask : (k : Nat) → (v : BitVec 10) → Nat
  | 0, _ => 0
  | k + 1, v => 2 ^ v.toNat ||| orbitMask k (timesBeta v)

theorem testBit_orbitMask {k i : Nat} {v : BitVec 10} :
    (orbitMask k v).testBit i = true ↔ ∃ j < k, (timesBeta^[j] v).toNat = i := by
  induction k generalizing v with
  | zero => simp [orbitMask]
  | succ k ih =>
    rw [orbitMask, Nat.testBit_or, Bool.or_eq_true, Nat.testBit_two_pow, decide_eq_true_eq, ih]
    constructor
    · rintro (rfl | ⟨j, hj, rfl⟩)
      · exact ⟨0, by omega, rfl⟩
      · exact ⟨j + 1, by omega, rfl⟩
    · rintro ⟨j, hj, rfl⟩
      cases j with
      | zero => exact Or.inl rfl
      | succ j => exact Or.inr ⟨j, by omega, rfl⟩

/-- The 1022 powers after the first are the elements other than zero and one. -/
theorem orbitMask_beta : orbitMask 1022 (timesBeta 1#10) = 2 ^ 2 * (2 ^ 1022 - 1) := by decide +kernel

theorem exists_power_of_beta {i : Nat} (hi : i < 1024) :
    (∃ j < 1022, (timesBeta^[j + 1] 1#10).toNat = i) ↔ 2 ≤ i := by
  have horbit : (orbitMask 1022 (timesBeta 1#10)).testBit i = true ↔ 2 ≤ i := by
    rw [orbitMask_beta, Nat.testBit_two_pow_mul, Nat.testBit_two_pow_sub_one, Bool.and_eq_true, decide_eq_true_eq,
      decide_eq_true_eq]
    omega
  rw [← horbit, testBit_orbitMask]
  rfl

@[simp] theorem pow_timesBetaHom_bits (k : Nat) (x : Syndrome) :
    ((timesBetaHom ^ k) x).bits = timesBeta^[k] x.bits := by
  induction k generalizing x with
  | zero => rfl
  | succ k ih => exact ih (timesBetaHom x)

theorem timesBetaHom_injective : Function.Injective timesBetaHom := by
  intro x y h
  exact Syndrome.ext (timesBeta_injective (congrArg Syndrome.bits h))

theorem timesBetaHom_separates : Separates timesBetaHom 1023 := by
  apply separates_of_orbit (e := ⟨1#10⟩) timesBetaHom_injective
  · intro x hx
    have hne : x.bits.toNat ≠ 0 := fun h => hx (Syndrome.ext (BitVec.eq_of_toNat_eq h))
    by_cases hone : x.bits.toNat = 1
    · exact ⟨0, Syndrome.ext (BitVec.eq_of_toNat_eq hone.symm)⟩
    · obtain ⟨j, -, hj⟩ := (exists_power_of_beta x.bits.isLt).2 (by omega)
      refine ⟨j + 1, Syndrome.ext (BitVec.eq_of_toNat_eq ?_)⟩
      rw [pow_timesBetaHom_bits, hj]
  · intro d hd hlt heq
    obtain ⟨j, rfl⟩ := Nat.exists_eq_succ_of_ne_zero hd.ne'
    have hbits := congrArg (fun x : Syndrome => x.bits.toNat) heq
    simp only [pow_timesBetaHom_bits] at hbits
    exact absurd ((exists_power_of_beta (by decide)).1 ⟨j, by omega, hbits⟩) (by decide)

/-! ### The roots of the generator -/

/-- The element of the field for a five-bit word. -/
def embed (v : BitVec 30) : BitVec 10 :=
  coefficient (v.getLsbD 0) 0x001#10 ^^^ coefficient (v.getLsbD 1) 0x00e#10 ^^^ coefficient (v.getLsbD 2) 0x054#10 ^^^
    coefficient (v.getLsbD 3) 0x358#10 ^^^ coefficient (v.getLsbD 4) 0x0bf#10

/-- The polynomial of the low `n` words of the register at `β ^ j`. -/
def evaluate (j : Nat) : (n : Nat) → (c : BitVec 30) → BitVec 10
  | 0, _ => 0#10
  | n + 1, c => embed c ^^^ timesBeta^[j] (evaluate j n (c >>> 5))

theorem embed_xor (v w : BitVec 30) : embed (v ^^^ w) = embed v ^^^ embed w := by
  simp only [embed, BitVec.getLsbD_xor, coefficient_xor]
  ac_rfl

theorem evaluate_xor (j n : Nat) (c d : BitVec 30) : evaluate j n (c ^^^ d) = evaluate j n c ^^^ evaluate j n d := by
  induction n generalizing c d with
  | zero => exact BitVec.xor_self.symm
  | succ n ih =>
    rw [evaluate, evaluate, evaluate, embed_xor, BitVec.ushiftRight_xor_distrib, ih, iterate_timesBeta_xor]
    ac_rfl

def evaluateHom (j : Nat) : Register →+ Syndrome :=
  AddMonoidHom.mk' (fun c => ⟨evaluate j 6 c.bits⟩) fun c d => Syndrome.ext (evaluate_xor j 6 c.bits d.bits)

theorem evaluate_zero (j n : Nat) : evaluate j n 0#30 = 0#10 := by
  have hsum := evaluate_xor j n 0#30 0#30
  rwa [BitVec.xor_self, BitVec.xor_self] at hsum

/-- Words that are zero add nothing. -/
theorem evaluate_succ_of_lt (j : Nat) {n : Nat} {c : BitVec 30} (hc : c.toNat < 32 ^ n) :
    evaluate j (n + 1) c = evaluate j n c := by
  induction n generalizing c with
  | zero =>
    obtain rfl : c = 0#30 := BitVec.eq_of_toNat_eq (Nat.lt_one_iff.1 hc)
    rw [evaluate_zero, evaluate_zero]
  | succ n ih =>
    have hshift : (c >>> 5).toNat < 32 ^ n := by
      rw [BitVec.toNat_ushiftRight, Nat.shiftRight_eq_div_pow]
      exact Nat.div_lt_of_lt_mul (by rwa [Nat.pow_succ, Nat.mul_comm] at hc)
    rw [evaluate, ih hshift]
    rfl

theorem evaluate_of_lt (j n : Nat) {v : BitVec 30} (hv : v.toNat < 32) : evaluate j (n + 1) v = embed v := by
  induction n with
  | zero =>
    have hzero : timesBeta^[j] 0#10 = 0#10 := Function.iterate_fixed rfl j
    rw [evaluate, evaluate, hzero, BitVec.xor_zero]
  | succ n ih =>
    have hlt : v.toNat < 32 ^ (n + 1) := lt_of_lt_of_le hv (Nat.le_self_pow n.succ_ne_zero 32)
    rw [evaluate_succ_of_lt j hlt, ih]

/-- A step that only shifts is a multiplication. -/
theorem evaluate_feedback_of_lt (j : Nat) {c : BitVec 30} (hc : c.toNat < 2 ^ 25) :
    evaluate j 6 (feedback c) = timesBeta^[j] (evaluate j 6 c) := by
  have hembed : embed (c <<< 5) = 0#10 := by
    simp [embed, coefficient]
  have hback : c <<< 5 >>> 5 = c := by
    apply BitVec.eq_of_toNat_eq
    rw [BitVec.toNat_ushiftRight, BitVec.toNat_shiftLeft, Nat.shiftLeft_eq, Nat.shiftRight_eq_div_pow]
    omega
  rw [feedback_of_lt hc, evaluate, hembed, hback, BitVec.zero_xor, evaluate_succ_of_lt j (n := 5) hc]

/-- The generator vanishes at `β ^ 24`, `β ^ 25` and `β ^ 26`: there every step is a multiplication. -/
theorem evaluate_feedback {m : Nat} (hm : m < 3) (c : BitVec 30) :
    evaluate (24 + m) 6 (feedback c) = timesBeta^[24 + m] (evaluate (24 + m) 6 c) := by
  have htop : ∀ m < 3, ∀ i < 5, evaluate (24 + m) 6 (feedback (BitVec.twoPow 30 (25 + i))) =
      timesBeta^[24 + m] (evaluate (24 + m) 6 (BitVec.twoPow 30 (25 + i))) := by decide +kernel
  refine eq_of_xor (f := fun c => evaluate (24 + m) 6 (feedback c))
    (g := fun c => timesBeta^[24 + m] (evaluate (24 + m) 6 c)) ?_ ?_ ?_ c
  · intro a b
    rw [feedback_xor, evaluate_xor]
  · intro a b
    rw [evaluate_xor, iterate_timesBeta_xor]
  · intro i hi
    by_cases hlow : i < 25
    · apply evaluate_feedback_of_lt
      rw [BitVec.toNat_twoPow_of_lt hi]
      exact Nat.pow_lt_pow_right (by decide) hlow
    · obtain ⟨k, rfl⟩ := Nat.exists_eq_add_of_le (not_lt.1 hlow)
      exact htop m hm k (by omega)

theorem embed_eq_zero {v : BitVec 30} (hv : v.toNat < 32) (h : embed v = 0#10) : v = 0#30 := by
  have hwords : ∀ n < 32, embed (BitVec.ofNat 30 n) = 0#10 → n = 0 := by decide +kernel
  have hval := hwords v.toNat hv (by rwa [BitVec.ofNat_toNat, BitVec.setWidth_eq])
  exact BitVec.eq_of_toNat_eq hval

theorem checksum_roots :
    Roots feedbackHom timesBetaHom 24 3 (fun m => evaluateHom (24 + m)) fun v => v.bits.toNat < 32 where
  step m hm c := by
    apply Syndrome.ext
    rw [pow_timesBetaHom_bits]
    exact evaluate_feedback hm c.bits
  symbol m _ v hv := by
    apply Syndrome.ext
    exact (evaluate_of_lt _ 5 hv).trans (evaluate_of_lt _ 5 hv).symm
  eq_zero v hv h := by
    have hbits : evaluate 24 6 v.bits = 0#10 := congrArg Syndrome.bits h
    rw [evaluate_of_lt 24 5 hv] at hbits
    exact Register.ext (embed_eq_zero hv hbits)

/-! ### Wrong symbols -/

instance : DecidableEq Register := fun a b => decidable_of_iff (a.bits = b.bits) Register.ext_iff.symm

/-- Valid strings do not differ in up to three symbols, the network letter counting as one. -/
theorem eq_of_verifyChecksum_differences {n m : Network} {dataA dataB : List JsInt32} (hA : Words dataA)
    (hB : Words dataB) (hlen : dataA.length = dataB.length) (hshort : dataA.length ≤ 1022)
    (hfew : differences (networkSymbol n :: dataA) (networkSymbol m :: dataB) ≤ 3)
    (hvA : verifyChecksum (hrpForNetwork n) dataA = true) (hvB : verifyChecksum (hrpForNetwork m) dataB = true) :
    networkSymbol n :: dataA = networkSymbol m :: dataB := by
  have hrun := ((verifyChecksum_iff hA).1 hvA).trans ((verifyChecksum_iff hB).1 hvB).symm
  rw [hrpExpand_hrpForNetwork, hrpExpand_hrpForNetwork, List.append_assoc, List.append_assoc,
    registerAfter_append, registerAfter_append, List.singleton_append, List.singleton_append] at hrun
  have hwordsA : Words (networkSymbol n :: dataA) := List.forall_mem_cons.2 ⟨networkSymbol_lt n, hA⟩
  have hwordsB : Words (networkSymbol m :: dataB) := List.forall_mem_cons.2 ⟨networkSymbol_lt m, hB⟩
  have hregisters := checksum_roots.eq_of_run_eq timesBetaHom_separates timesBetaHom_injective (by simpa using hlen)
    ?_ (by simpa using Nat.lt_succ_of_le hshort) ((differences_map_le toRegister _ _).trans hfew) hrun
  · apply eq_of_differences_eq_zero (by simpa using hlen)
    have hle := differences_le_map (f := toRegister) (s := networkSymbol n :: dataA) (t := networkSymbol m :: dataB)
      fun v hv w hw => toRegister_inj (hwordsA v hv) (hwordsB w hw)
    rw [hregisters, differences_self] at hle
    omega
  · intro r hr r' hr'
    obtain ⟨v, hv, rfl⟩ := List.mem_map.1 hr
    obtain ⟨w, hw, rfl⟩ := List.mem_map.1 hr'
    rw [Register.sub_bits, BitVec.toNat_xor]
    apply Nat.xor_lt_two_pow (n := 5)
    · rw [toRegister_toNat (hwordsA v hv)]
      exact hwordsA v hv
    · rw [toRegister_toNat (hwordsB w hw)]
      exact hwordsB w hw

/-- The number of wrong symbols of an address: the characters of the data part that differ, and the
network prefix if it does. -/
def wrongSymbols (n m : Network) (s t : JsString) : Nat :=
  (if hrpForNetwork n = hrpForNetwork m then 0 else 1) + differences s t

theorem lowerUnit_charset : ∀ c ∈ charset, lowerUnit c = c := by
  intro c hc
  obtain ⟨i, hi, rfl⟩ := List.getElem_of_mem hc
  have hchar := charset_getElem? i hi
  rw [List.getElem?_eq_getElem hi, Option.some.injEq] at hchar
  rw [hchar]
  exact lowerUnit_charOf i hi

theorem mem_charset_of_mem_charsOfValues {data : List JsInt32} (h : Words data) :
    ∀ c ∈ charsOfValues data, c ∈ charset := by
  intro c hc
  rw [charsOfValues_eq h] at hc
  obtain ⟨v, hv, rfl⟩ := List.mem_map.1 hc
  exact List.mem_of_getElem? (charset_getElem? _ (h v hv))

theorem mem_charset_of_replaced {s t : JsString} (hs : ∀ c ∈ s, c ∈ charset)
    (h : List.Forall₂ (fun x y => x = y ∨ y ∈ charset) s t) : ∀ c ∈ t, c ∈ charset := by
  induction h with
  | nil => exact hs
  | cons hxy _ ih =>
    rw [List.forall_mem_cons] at hs ⊢
    refine ⟨?_, ih hs.2⟩
    rcases hxy with rfl | hmem
    · exact hs.1
    · exact hmem

theorem networkSymbol_eq_of_hrp {n m : Network} (h : hrpForNetwork n = hrpForNetwork m) :
    networkSymbol n = networkSymbol m := by
  revert h
  cases n <;> cases m <;> decide

theorem differences_le_wrongSymbols {n m : Network} {dataA dataB : List JsInt32} (hA : Words dataA) (hB : Words dataB) :
    differences (networkSymbol n :: dataA) (networkSymbol m :: dataB) ≤
      wrongSymbols n m (charsOfValues dataA) (charsOfValues dataB) := by
  rw [differences_cons, wrongSymbols]
  apply Nat.add_le_add
  · by_cases heq : hrpForNetwork n = hrpForNetwork m
    · rw [if_pos heq, if_pos (networkSymbol_eq_of_hrp heq)]
    · rw [if_neg heq]
      split_ifs <;> omega
  · rw [charsOfValues_eq hA, charsOfValues_eq hB]
    apply differences_le_map
    intro v hv w hw heq
    exact BitVec.eq_of_toNat_eq (charOf_inj (hA v hv) (hB w hw) heq)

/-- A string with the prefix of a network and a data part of the charset is read back from its text. -/
theorem Accepted.parts {m network : Network} {t : JsString} {data : List JsInt32} (ht : ∀ c ∈ t, c ∈ charset)
    (h : Accepted (hrpForNetwork m ++ lit "1" ++ t) network data) :
    hrpForNetwork network = hrpForNetwork m ∧ t = charsOfValues data := by
  have hstart : ∀ n : Network, toLowerCase (hrpForNetwork n ++ lit "1") = hrpForNetwork n ++ lit "1" ∧
      (hrpForNetwork n ++ lit "1").length = 4 := by
    intro n
    cases n <;> decide
  have hlower : toLowerCase t = t :=
    (List.map_congr_left fun c hc => lowerUnit_charset c (ht c hc)).trans (List.map_id t)
  have htext := h.valid.text
  rw [toLowerCase_append, (hstart m).1, hlower] at htext
  obtain ⟨hhrp, hdata⟩ := List.append_inj htext ((hstart m).2.trans (hstart network).2.symm)
  exact ⟨(List.append_cancel_right hhrp).symm, hdata⟩

/-- **Up to three wrong symbols are rejected** in an address whose data part has at most 1022 characters. In
lower case an accepted address is the prefix of its network, the separator and a data part; whatever
network prefix and characters of the charset take the place of one to three of its symbols, decoding
throws. -/
theorem decodeCkbAddress_wrongSymbols {a : JsString} {d : DecodedCkbAddress} (hlower : toLowerCase a = a)
    (haccept : decodeCkbAddress a = .ok d) :
    ∃ s, a = hrpForNetwork d.network ++ lit "1" ++ s ∧
      (s.length ≤ 1022 → ∀ (network : Network) (t : JsString),
        List.Forall₂ (fun x y => x = y ∨ y ∈ charset) s t →
        1 ≤ wrongSymbols d.network network s t → wrongSymbols d.network network s t ≤ 3 →
        ∃ e, decodeCkbAddress (hrpForNetwork network ++ lit "1" ++ t) = .error e) := by
  obtain ⟨dataA, hA⟩ := accepted_of_decodeCkbAddress haccept
  have htext := hA.valid.text
  rw [hlower] at htext
  refine ⟨charsOfValues dataA, htext, ?_⟩
  intro hshort network t hreplaced hone hthree
  apply Result.exists_error_of_not_ok
  intro d' haccept'
  obtain ⟨dataB, hB⟩ := accepted_of_decodeCkbAddress haccept'
  obtain ⟨hhrp, rfl⟩ := hB.parts (mem_charset_of_replaced (mem_charset_of_mem_charsOfValues hA.valid.words) hreplaced)
  have hvB := hB.valid.checksum
  rw [hhrp] at hvB
  have hlen : dataA.length = dataB.length := by
    rw [← charsOfValues_length hA.valid.words, hreplaced.length_eq, charsOfValues_length hB.valid.words]
  rw [charsOfValues_length hA.valid.words] at hshort
  have hfew := (differences_le_wrongSymbols hA.valid.words hB.valid.words).trans hthree
  have hequal := eq_of_verifyChecksum_differences hA.valid.words hB.valid.words hlen hshort hfew hA.valid.checksum hvB
  obtain ⟨hsymbol, rfl⟩ := List.cons.inj hequal
  rw [wrongSymbols, differences_self,
    if_pos (hrpForNetwork_eq_of_letter _ _ (networkLetter_eq_of_symbol hsymbol))] at hone
  omega

/-- Lower case does not change what an accepted address stands for. -/
theorem decodeCkbAddress_toLowerCase {a : JsString} {d : DecodedCkbAddress} (h : decodeCkbAddress a = .ok d) :
    decodeCkbAddress (toLowerCase a) = .ok d := by
  obtain ⟨hdev, codeHash, hashType, args, hdecode, hrest⟩ := decodeCkbAddress_eq_ok.1 h
  refine decodeCkbAddress_eq_ok.2 ⟨hdev, codeHash, hashType, args, ?_, hrest⟩
  rw [decodeBech32m_iff_encodeBech32m, toLowerCase_toLowerCase]
  exact ⟨Or.inl rfl, (decodeBech32m_iff_encodeBech32m.1 hdecode).2⟩

/-- The sample address in lower case, with its prefix and the first two characters of its data part replaced. -/
theorem decodeCkbAddress_wrongSymbols_sampleAddress :
    decodeCkbAddress (toLowerCase sampleAddress) = .ok ⟨.testnet, sampleScript⟩ ∧
      ∃ e, decodeCkbAddress (hrpForNetwork .mainnet ++ lit "1" ++ (lit "pp" ++ (toLowerCase sampleAddress).drop 6)) =
        .error e := by
  have haccept := decodeCkbAddress_toLowerCase decodeCkbAddress_sampleAddress
  refine ⟨haccept, ?_⟩
  obtain ⟨s, hs, hreject⟩ := decodeCkbAddress_wrongSymbols (toLowerCase_toLowerCase _) haccept
  have hdata : s = lit "qz" ++ (toLowerCase sampleAddress).drop 6 := by
    have hdrop := congrArg (List.drop 4) hs
    have hstart : (toLowerCase sampleAddress).drop 4 = lit "qz" ++ (toLowerCase sampleAddress).drop 6 := by decide
    exact hdrop.symm.trans hstart
  have hwrong : wrongSymbols .testnet .mainnet s (lit "pp" ++ (toLowerCase sampleAddress).drop 6) = 3 := by
    have hqz : lit "qz" = [113, 122] := by decide
    have hpp : lit "pp" = [112, 112] := by decide
    rw [hdata, wrongSymbols, if_neg (by decide), hqz, hpp, List.cons_append, List.cons_append, List.cons_append,
      List.cons_append, differences_cons, differences_cons, List.nil_append, differences_self]
    rfl
  refine hreject (by rw [hdata]; decide) .mainnet _ ?_ (by rw [hwrong]; decide) hwrong.le
  rw [hdata]
  exact .cons (Or.inr (by decide)) (.cons (Or.inr (by decide)) (List.forall₂_same.2 fun c _ => Or.inl rfl))

end CkbDilithium.Sdk
