import CkbDilithium.Address.Bech32m

/-!
# `convertBits` cuts the bits of its input into groups

What `convertBits` is for, without words and shifts: the bits of the values are written out one value after
the other, most significant first, and cut into groups of `toBits` (`PaddedGroups`, `CompleteGroups`). The code keeps
only a 32-bit accumulator whose upper bits are wrong after a few values; `convertBits_pad` and `convertBits_strict` say
that it computes with the number these bits stand for, and a list of groups is determined by its length and
that number.
-/

namespace CkbDilithium.Sdk

open Js

/-! ### The specification -/

/-- The bits of the values, `fromBits` each, most significant first. -/
def bitsOf (fromBits : Nat) (data : List JsInt32) : List Nat := expand 2 fromBits (natValues data)

/-- With padding: the groups of the bits, zeros appended to the last one. -/
def PaddedGroups (fromBits toBits : Nat) (data result : List JsInt32) : Prop :=
  natValues result = groups 2 toBits (padded toBits (bitsOf fromBits data))

/-- Without padding, what is left after the complete groups is refused: a whole value or more, or a bit
that is set. -/
def BadPadding (fromBits toBits : Nat) (data : List JsInt32) : Prop :=
  fromBits ≤ (leftOver toBits (bitsOf fromBits data)).length ∨ ∃ bit ∈ leftOver toBits (bitsOf fromBits data), bit ≠ 0

/-- Without padding: the complete groups. -/
def CompleteGroups (fromBits toBits : Nat) (data result : List JsInt32) : Prop :=
  natValues result = groups 2 toBits (bitsOf fromBits data)

section Groups

variable {f t : Nat} {data : List JsInt32}

theorem bitsOf_length (f : Nat) (data : List JsInt32) : (bitsOf f data).length = f * data.length := by
  rw [bitsOf, expand_length, natValues_length]

theorem beVal_bitsOf (hdata : ∀ v ∈ data, v.toNat < 2 ^ f) :
    beVal 2 (bitsOf f data) = beVal (2 ^ f) (natValues data) :=
  beVal_expand (by decide) (forall_mem_natValues.2 hdata)

/-- A list of words with the length and the value of the groups is the groups. -/
theorem natValues_eq_groups (bits : List Nat) {result : List JsInt32} (hbits : ∀ b ∈ bits, b < 2)
    (hresult : ∀ r ∈ result, r.toNat < 2 ^ t) (hlen : result.length = bits.length / t)
    (hval : beVal (2 ^ t) (natValues result) = beVal 2 (bits.take (t * (bits.length / t)))) :
    natValues result = groups 2 t bits := by
  apply beVal_inj (b := 2 ^ t)
  · rw [natValues_length, groups, firstGroups_length, hlen]
  · exact forall_mem_natValues.2 hresult
  · exact firstGroups_lt (by decide) hbits
  · rw [hval, groups, beVal_firstGroups (Nat.mul_div_le ..)]

theorem convertBits_paddedGroups (hf : f ≤ 8) (ht : 0 < t) (ht8 : t ≤ 8) (hdata : ∀ v ∈ data, v.toNat < 2 ^ f) :
    ∃ result, convertBits data f t true = .ok result ∧ PaddedGroups f t data result := by
  obtain ⟨result, p, hrun, hp, hcount, hlt, hval⟩ := convertBits_pad hf ht ht8 hdata
  refine ⟨result, hrun, ?_⟩
  have hlen := bitsOf_length f data
  -- `p` zeros make the bits a multiple of `t`, and there is only one such number below `t`.
  have hpadding : (t - (bitsOf f data).length % t) % t = p := by
    apply padding_unique hp
    rw [hlen, ← hcount, Nat.mul_mod_right]
  have hpadded : padded t (bitsOf f data) = bitsOf f data ++ List.replicate p 0 := by rw [padded, hpadding]
  have htotal : (padded t (bitsOf f data)).length = t * result.length := by
    rw [hpadded, List.length_append, List.length_replicate, hlen, hcount]
  apply natValues_eq_groups
  · rw [hpadded]
    intro b hb
    rcases List.mem_append.1 hb with hb | hb
    · exact expand_lt (by decide) _ _ b hb
    · rw [List.eq_of_mem_replicate hb]
      decide
  · exact hlt
  · rw [htotal, Nat.mul_div_cancel_left _ ht]
  · rw [htotal, Nat.mul_div_cancel_left _ ht, ← htotal, List.take_length, hpadded, beVal_append, beVal_replicate_zero,
      List.length_replicate, beVal_bitsOf hdata, hval, Nat.add_zero]

theorem convertBits_completeGroups (hf : f ≤ 8) (ht : 0 < t) (ht8 : t ≤ 8) (hdata : ∀ v ∈ data, v.toNat < 2 ^ f) :
    (BadPadding f t data → convertBits data f t false = raise (lit "invalid padding in bit conversion")) ∧
    (¬ BadPadding f t data → ∃ result, convertBits data f t false = .ok result ∧ CompleteGroups f t data result) := by
  obtain ⟨result, bits, hbits, hcount, hlt, hval, hrun⟩ := convertBits_strict hf ht ht8 hdata
  have hlen : (bitsOf f data).length = t * result.length + bits := by rw [bitsOf_length, hcount]
  have hwhole : (bitsOf f data).length / t = result.length := by
    rw [hlen, Nat.mul_add_div ht, Nat.div_eq_of_lt hbits, Nat.add_zero]
  have hsplit : bitsOf f data = (bitsOf f data).take (t * result.length) ++ leftOver t (bitsOf f data) := by
    rw [leftOver, hwhole, List.take_append_drop]
  have hleft : (leftOver t (bitsOf f data)).length = bits := by
    rw [leftOver, hwhole, List.length_drop, hlen, Nat.add_sub_cancel_left]
  have hleftLt : beVal 2 (leftOver t (bitsOf f data)) < 2 ^ bits := by
    rw [← hleft]
    exact beVal_lt fun b hb => expand_lt (by decide) _ _ b (List.mem_of_mem_drop hb)
  -- The number is the groups, followed by the left-over bits.
  have hnumber : beVal (2 ^ f) (natValues data) =
      beVal 2 ((bitsOf f data).take (t * result.length)) * 2 ^ bits + beVal 2 (leftOver t (bitsOf f data)) := by
    rw [← beVal_bitsOf hdata, ← hleft, ← beVal_append, ← hsplit]
  have hmod : beVal (2 ^ f) (natValues data) % 2 ^ bits = beVal 2 (leftOver t (bitsOf f data)) := by
    rw [hnumber, Nat.mul_add_mod_of_lt hleftLt]
  have hdiv : beVal (2 ^ f) (natValues data) / 2 ^ bits = beVal 2 ((bitsOf f data).take (t * result.length)) := by
    rw [hnumber, Nat.mul_comm, Nat.mul_add_div (Nat.two_pow_pos bits), Nat.div_eq_of_lt hleftLt, Nat.add_zero]
  have hbad : BadPadding f t data ↔ f ≤ bits ∨ beVal (2 ^ f) (natValues data) % 2 ^ bits ≠ 0 := by
    rw [BadPadding, hleft, hmod, ne_eq, beVal_eq_zero (by decide)]
    simp
  rw [hrun]
  constructor
  · intro h
    exact if_pos (hbad.1 h)
  · intro h
    refine ⟨result, if_neg fun hc => h (hbad.2 hc), ?_⟩
    refine natValues_eq_groups (bitsOf f data) (expand_lt (by decide) _ _) hlt hwhole.symm ?_
    rw [hwhole, hval, hdiv]

end Groups

/-! ### Bytes and words -/

theorem convertBits_bytes_words {bytes : List JsInt32} (h : ∀ v ∈ bytes, v.toNat < 2 ^ 8) :
    ∃ words, convertBits bytes 8 5 true = .ok words ∧ convertBits words 5 8 false = .ok bytes := by
  rw [← byteValues_bytesOfValues h]
  obtain ⟨words, hwords, -⟩ := convertBits_paddedGroups (f := 8) (t := 5) (by decide) (by decide) (by decide)
    (byteValues_lt (bytesOfValues bytes))
  exact ⟨words, hwords, (convertBits_words_iff.1 hwords).2⟩

theorem convertBits_words_bytes {words bytes : List JsInt32} (hwords : Words words)
    (h : convertBits words 5 8 false = .ok bytes) : convertBits bytes 8 5 true = .ok words := by
  have hbytes : ∀ v ∈ bytes, v.toNat < 2 ^ 8 := by
    obtain ⟨result, bits, -, -, hlt, -, hrun⟩ :=
      convertBits_strict (f := 5) (t := 8) (by decide) (by decide) (by decide) hwords
    rw [hrun] at h
    split_ifs at h
    · exact absurd h raise_ne_ok
    · rwa [← Except.ok.inj h]
  rw [← byteValues_bytesOfValues hbytes] at h ⊢
  exact convertBits_words_iff.2 ⟨hwords, h⟩

/-- **`convertBits` regroups bits**, whatever its accumulator loses. For widths up to eight and values below
`2 ^ f`, at any length: with padding it gives the groups of the bits written out, the last one filled up with zeros;
without padding it throws exactly when the bits left over are `f` or more or not all zero, and gives the complete
groups otherwise. The two conversions of an address undo each other, on every byte string and on
every list of words that is accepted. -/
theorem convertBits_regroups :
    (∀ (f t : Nat) (data : List JsInt32), f ≤ 8 → 1 ≤ t → t ≤ 8 → (∀ v ∈ data, v.toNat < 2 ^ f) →
      (∃ result, convertBits data f t true = .ok result ∧ PaddedGroups f t data result) ∧
      (BadPadding f t data → convertBits data f t false = raise (lit "invalid padding in bit conversion")) ∧
      (¬ BadPadding f t data →
        ∃ result, convertBits data f t false = .ok result ∧ CompleteGroups f t data result)) ∧
    (∀ bytes : List JsInt32, (∀ v ∈ bytes, v.toNat < 2 ^ 8) →
      ∃ words, convertBits bytes 8 5 true = .ok words ∧ convertBits words 5 8 false = .ok bytes) ∧
    ∀ words bytes : List JsInt32, (∀ v ∈ words, v.toNat < 2 ^ 5) → convertBits words 5 8 false = .ok bytes →
      convertBits bytes 8 5 true = .ok words := by
  refine ⟨?_, fun bytes hbytes => convertBits_bytes_words hbytes, fun words bytes hwords h => ?_⟩
  · intro f t data hf ht ht8 hdata
    exact ⟨convertBits_paddedGroups hf ht ht8 hdata, convertBits_completeGroups hf ht ht8 hdata⟩
  · exact convertBits_words_bytes hwords h

/-- Two bytes make four words, the last with four zeros appended. -/
theorem convertBits_regroups_two_bytes :
    (∃ words, convertBits [0xff#32, 0x01#32] 8 5 true = .ok words ∧ PaddedGroups 8 5 [0xff#32, 0x01#32] words) ∧
    ¬ BadPadding 5 8 [31#32, 28#32, 0#32, 16#32] ∧
    (∃ bytes, convertBits [31#32, 28#32, 0#32, 16#32] 5 8 false = .ok bytes ∧
      CompleteGroups 5 8 [31#32, 28#32, 0#32, 16#32] bytes) := by
  have hgood : ¬ BadPadding 5 8 [31#32, 28#32, 0#32, 16#32] := by
    rw [BadPadding]
    decide
  exact ⟨(convertBits_regroups.1 8 5 _ (by decide) (by decide) (by decide) (by simp)).1, hgood,
    (convertBits_regroups.1 5 8 _ (by decide) (by decide) (by decide) (by simp)).2.2 hgood⟩

end CkbDilithium.Sdk
