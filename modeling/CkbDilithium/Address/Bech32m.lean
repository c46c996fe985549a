import CkbDilithium.Address.Checksum

/-!
# Bech32m strings

The two regroupings of an address invert each other (`convertBits_words_iff`): bytes to five-bit
words with padding, and words to bytes where the padding must be short and zero. With the unique
checksum of given words, a string decodes to a prefix and a payload exactly when, in lower case, it
is their encoding (`decodeBech32m_iff_encodeBech32m`).
-/

namespace CkbDilithium.Sdk

open Js

/-! ### Characters -/

/-- The character of a five-bit word. -/
def charOf (v : Nat) : UInt16 := charset.getD v 0

theorem charset_getElem? : ∀ v < 32, charset[v]? = some (charOf v) := by decide

theorem charset_idxOf? : ∀ v < 32, charset.idxOf? (charOf v) = some v := by decide

theorem lowerUnit_charOf : ∀ v < 32, lowerUnit (charOf v) = charOf v := by decide

theorem charOf_ne_separator : ∀ v < 32, charOf v ≠ unit '1' := by decide

theorem charOf_inj {v w : Nat} (hv : v < 32) (hw : w < 32) (h : charOf v = charOf w) : v = w :=
  Option.some.inj (by rw [← charset_idxOf? v hv, ← charset_idxOf? w hw, h])

theorem charsetValue_eq_ok {c : UInt16} {v : JsInt32} :
    charsetValue c = .ok v ↔ v.toNat < 32 ∧ c = charOf v.toNat := by
  constructor
  · intro h
    cases hidx : charset.idxOf? c with
    | none =>
      simp only [charsetValue, charsetIndex, hidx, Option.map_none] at h
      exact absurd h raise_ne_ok
    | some i =>
      simp only [charsetValue, charsetIndex, hidx, Option.map_some, Result.pure_eq_ok] at h
      obtain ⟨hi, hget, -⟩ := List.findIdx?_eq_some_iff_getElem.1 hidx
      have hlt : i < 32 := hi
      have hv : v.toNat = i := by
        rw [← h, BitVec.toNat_ofNat]
        omega
      have hchar := charset_getElem? i hlt
      rw [List.getElem?_eq_getElem hi, Option.some.injEq] at hchar
      rw [hv]
      exact ⟨hlt, by rw [← hchar]; exact (beq_iff_eq.1 hget).symm⟩
  · intro h
    rcases h with ⟨hv, rfl⟩
    simp only [charsetValue, charsetIndex, charset_idxOf? _ hv, Option.map_some, BitVec.ofNat_toNat,
      BitVec.setWidth_eq, Result.pure_eq_ok]

theorem charsOfValues_eq {data : List JsInt32} (h : Words data) :
    charsOfValues data = data.map fun v => charOf v.toNat := by
  induction data with
  | nil => rfl
  | cons v data ih =>
    have htail := ih fun w hw => h w (by simp [hw])
    unfold charsOfValues at htail ⊢
    rw [List.flatMap_cons, htail, charset_getElem? _ (h v (by simp))]
    rfl

/-- Reading the data part undoes writing it. -/
theorem mapM_charsetValue {s : JsString} {data : List JsInt32} :
    s.mapM charsetValue = .ok data ↔ Words data ∧ s = charsOfValues data := by
  rw [Result.mapM_eq_ok]
  constructor
  · intro h
    have hwords : Words data := by
      intro v hv
      obtain ⟨i, hi, rfl⟩ := List.getElem_of_mem hv
      have hlen : i < s.length := by rw [h.length_eq]; exact hi
      exact (charsetValue_eq_ok.1 (List.forall₂_iff_get.1 h |>.2 i hlen hi)).1
    refine ⟨hwords, ?_⟩
    rw [charsOfValues_eq hwords, ← List.forall₂_eq_eq_eq, List.forall₂_map_right_iff]
    exact h.imp fun c v hcv => (charsetValue_eq_ok.1 hcv).2
  · intro h
    rcases h with ⟨hwords, rfl⟩
    rw [charsOfValues_eq hwords, List.forall₂_map_left_iff, List.forall₂_same]
    exact fun v hv => charsetValue_eq_ok.2 ⟨hwords v hv, rfl⟩

theorem charsOfValues_length {data : List JsInt32} (h : Words data) :
    (charsOfValues data).length = data.length := by
  rw [charsOfValues_eq h, List.length_map]

theorem separator_notMem_charsOfValues {data : List JsInt32} (h : Words data) :
    unit '1' ∉ charsOfValues data := by
  rw [charsOfValues_eq h, List.mem_map]
  intro h
  rcases h with ⟨v, hv, heq⟩
  exact charOf_ne_separator _ (h v hv) heq

theorem toLowerCase_charsOfValues {data : List JsInt32} (h : Words data) :
    toLowerCase (charsOfValues data) = charsOfValues data := by
  rw [charsOfValues_eq h, toLowerCase, List.map_map]
  exact List.map_congr_left fun v hv => lowerUnit_charOf _ (h v hv)

/-! ### Bytes and words -/

theorem byteValues_lt (payload : Bytes) : ∀ v ∈ byteValues payload, v.toNat < 2 ^ 8 := by
  intro v hv
  obtain ⟨b, -, rfl⟩ := List.mem_map.1 hv
  have := b.toNat_lt
  rw [BitVec.toNat_ofNat]
  omega

@[simp] theorem byteValues_length (payload : Bytes) : (byteValues payload).length = payload.length :=
  List.length_map ..

theorem bytesOfValues_byteValues (payload : Bytes) : bytesOfValues (byteValues payload) = payload := by
  rw [bytesOfValues, byteValues, List.map_map]
  refine (List.map_congr_left fun b _ => ?_).trans (List.map_id payload)
  apply UInt8.toNat_inj.1
  have := b.toNat_lt
  simp only [Function.comp_apply, BitVec.toNat_ofNat, UInt8.toNat_ofNat', id_eq]
  omega

theorem byteValues_bytesOfValues {values : List JsInt32} (h : ∀ v ∈ values, v.toNat < 2 ^ 8) :
    byteValues (bytesOfValues values) = values := by
  rw [bytesOfValues, byteValues, List.map_map]
  refine (List.map_congr_left fun v hv => ?_).trans (List.map_id values)
  apply BitVec.eq_of_toNat_eq
  have := h v hv
  simp only [Function.comp_apply, BitVec.toNat_ofNat, UInt8.toNat_ofNat', id_eq]
  omega

/-- **The two regroupings are inverse to each other**, at every length. -/
theorem convertBits_words_iff {payload : Bytes} {words : List JsInt32} :
    convertBits (byteValues payload) 8 5 true = .ok words ↔
      Words words ∧ convertBits words 5 8 false = .ok (byteValues payload) := by
  obtain ⟨padded, p, hpadded, hp, hcount, hpaddedWords, hvalue⟩ :=
    convertBits_pad (f := 8) (t := 5) (by decide) (by decide) (by decide) (byteValues_lt payload)
  rw [byteValues_length] at hcount
  rw [hpadded, Except.ok.injEq]
  constructor
  · rintro rfl
    refine ⟨hpaddedWords, ?_⟩
    obtain ⟨values, bits, hbits, hcount', hlt, hvalue', hrun⟩ :=
      convertBits_strict (f := 5) (t := 8) (by decide) (by decide) (by decide) hpaddedWords
    -- both lengths leave the same remainder
    obtain rfl : bits = p := by omega
    rw [hvalue, Nat.mul_div_cancel _ (Nat.two_pow_pos bits)] at hvalue'
    rw [hrun, hvalue, Nat.mul_mod_left, if_neg (by omega), Except.ok.injEq]
    exact natValues_injective (beVal_inj (by simp only [natValues_length, byteValues_length]; omega)
      (forall_mem_natValues.2 hlt) (forall_mem_natValues.2 (byteValues_lt payload)) hvalue')
  · intro h
    rcases h with ⟨hwords, hstrict⟩
    obtain ⟨values, bits, hbits, hcount', hlt, hvalue', hrun⟩ :=
      convertBits_strict (f := 5) (t := 8) (by decide) (by decide) (by decide) hwords
    rw [hstrict] at hrun
    split_ifs at hrun with hpadding
    · exact absurd hrun.symm raise_ne_ok
    · obtain rfl := Except.ok.inj hrun
      rw [not_or, not_not] at hpadding
      rw [byteValues_length] at hcount'
      obtain rfl : bits = p := by omega
      rw [hvalue', Nat.div_mul_cancel (Nat.dvd_of_mod_eq_zero hpadding.2)] at hvalue
      exact natValues_injective (beVal_inj (by simp only [natValues_length]; omega)
        (forall_mem_natValues.2 hpaddedWords) (forall_mem_natValues.2 hwords) hvalue)

/-! ### Strings -/

/-- A lower-case string of a prefix, the separator and a data part with a valid checksum. -/
structure ValidBech32m (s hrp : JsString) (data : List JsInt32) : Prop where
  hrp_ne_nil : hrp ≠ []
  words : Words data
  length_ge : 6 ≤ data.length
  text : s = hrp ++ lit "1" ++ charsOfValues data
  checksum : verifyChecksum hrp data = true

theorem encodeBech32m_eq_ok {hrp s : JsString} {payload : Bytes} :
    encodeBech32m hrp payload = .ok s ↔
      ∃ words, convertBits (byteValues payload) 8 5 true = .ok words ∧
        s = hrp ++ lit "1" ++ charsOfValues (words ++ createChecksum hrp words) := by
  simp only [encodeBech32m, Result.bind_eq_ok, Result.pure_eq_ok]
  exact exists_congr fun words => and_congr_right fun _ => eq_comm

/-- The string is cut at the last separator, which the data part does not contain. -/
theorem ValidBech32m.cut {s hrp : JsString} {data : List JsInt32} (h : ValidBech32m s hrp data) :
    lastIndexOf s (unit '1') = hrp.length ∧ s.take hrp.length = hrp ∧
      s.drop (hrp.length + 1) = charsOfValues data ∧ s.length = hrp.length + 1 + data.length := by
  have htext : s = hrp ++ unit '1' :: charsOfValues data := by
    rw [h.text, List.append_assoc]
    rfl
  rw [htext]
  refine ⟨lastIndexOf_append (separator_notMem_charsOfValues h.words), by simp, by simp, ?_⟩
  rw [List.length_append, List.length_cons, charsOfValues_length h.words]
  omega

theorem decodeBech32m_eq_ok {address hrp : JsString} {payload : Bytes} :
    decodeBech32m address = .ok (hrp, payload) ↔
      (toLowerCase address = address ∨ toUpperCase (toLowerCase address) = address) ∧
        ∃ data, ValidBech32m (toLowerCase address) hrp data ∧
          convertBits (data.take (data.length - 6)) 5 8 false = .ok (byteValues payload) := by
  simp only [decodeBech32m, ite_raise_eq_ok, Result.bind_eq_ok, Result.pure_eq_ok, Prod.mk.injEq,
    not_not, mapM_charsetValue, ne_eq, not_and_or, not_or, not_le, not_lt, gt_iff_lt]
  refine and_congr_right fun _ => ?_
  constructor
  · intro h
    rcases h with ⟨⟨hpos, hlen⟩, data, ⟨hwords, hdata⟩, hverify, values, hvalues, rfl, rfl⟩
    obtain ⟨head, tail, hsplit, htail⟩ := split_of_lastIndexOf hpos.le
    rw [hsplit, lastIndexOf_append htail] at hpos hlen hdata hverify ⊢
    simp only [Int.toNat_natCast, List.take_left, List.drop_append, List.length_append, List.length_cons,
      List.drop_eq_nil_of_le (Nat.le_succ head.length), Nat.add_sub_cancel_left, List.drop_succ_cons,
      List.drop_zero, List.nil_append] at hpos hlen hdata hverify ⊢
    refine ⟨data, ⟨?_, hwords, ?_, ?_, hverify⟩, ?_⟩
    · rintro rfl
      simp at hpos
    · rw [← charsOfValues_length hwords, ← hdata]
      push_cast at hlen
      omega
    · rw [List.append_assoc, ← hdata]
      rfl
    · rw [byteValues_bytesOfValues, hvalues]
      obtain ⟨result, bits, -, -, hlt, -, hrun⟩ := convertBits_strict (f := 5) (t := 8) (by decide)
        (by decide) (by decide) (fun v hv => hwords v (List.mem_of_mem_take hv))
      rw [hrun] at hvalues
      split_ifs at hvalues
      · exact absurd hvalues raise_ne_ok
      · rwa [← Except.ok.inj hvalues]
  · intro h
    rcases h with ⟨data, hvalid, hvalues⟩
    obtain ⟨hsep, htake, hdrop, hlength⟩ := hvalid.cut
    have hne := List.length_pos_iff.2 hvalid.hrp_ne_nil
    have hsix := hvalid.length_ge
    simp only [hsep, Int.toNat_natCast, htake, hdrop]
    refine ⟨⟨by omega, ?_⟩, data, ⟨hvalid.words, rfl⟩, hvalid.checksum, byteValues payload, hvalues, trivial,
      bytesOfValues_byteValues payload⟩
    rw [hlength]
    push_cast
    omega

/-- **A string decodes exactly when, in lower case, it is the encoding of what it decodes to**; it
must not mix upper and lower case. -/
theorem decodeBech32m_iff_encodeBech32m {address hrp : JsString} {payload : Bytes} :
    decodeBech32m address = .ok (hrp, payload) ↔
      (toLowerCase address = address ∨ toUpperCase (toLowerCase address) = address) ∧ hrp ≠ [] ∧
        encodeBech32m hrp payload = .ok (toLowerCase address) := by
  rw [decodeBech32m_eq_ok, encodeBech32m_eq_ok]
  refine and_congr_right fun _ => ?_
  constructor
  · intro h
    rcases h with ⟨data, hvalid, hvalues⟩
    have hsix := hvalid.length_ge
    set words := data.take (data.length - 6) with hwordsdef
    have hwords : Words words := fun v hv => hvalid.words v (List.mem_of_mem_take hv)
    have hdata : words ++ data.drop (data.length - 6) = data := List.take_append_drop ..
    have hchecksum : data.drop (data.length - 6) = createChecksum hrp words := by
      rw [← verifyChecksum_append_iff hwords (fun v hv => hvalid.words v (List.mem_of_mem_drop hv)), hdata]
      · exact hvalid.checksum
      · rw [List.length_drop]
        omega
    refine ⟨hvalid.hrp_ne_nil, words, convertBits_words_iff.2 ⟨hwords, hvalues⟩, ?_⟩
    rw [← hchecksum, hdata]
    exact hvalid.text
  · intro h
    rcases h with ⟨hne, words, hconvert, htext⟩
    obtain ⟨hwords, hvalues⟩ := convertBits_words_iff.1 hconvert
    have hchecksum : Words (createChecksum hrp words) := createChecksum_words hwords
    have hlen := createChecksum_length hrp words
    refine ⟨words ++ createChecksum hrp words, ⟨hne, hwords.append hchecksum, ?_, htext, ?_⟩, ?_⟩
    · rw [List.length_append]
      omega
    · exact (verifyChecksum_append_iff hwords hchecksum hlen).2 rfl
    · rw [List.length_append, hlen, Nat.add_sub_cancel, List.take_left]
      exact hvalues

/-- Every payload has an encoding, in lower case if the prefix is. -/
theorem exists_encodeBech32m (hrp : JsString) (payload : Bytes) :
    ∃ s, encodeBech32m hrp payload = .ok s ∧ (toLowerCase hrp = hrp → toLowerCase s = s) := by
  obtain ⟨words, -, hwords, -, -, hlt, -⟩ :=
    convertBits_pad (f := 8) (t := 5) (by decide) (by decide) (by decide) (byteValues_lt payload)
  refine ⟨_, encodeBech32m_eq_ok.2 ⟨words, hwords, rfl⟩, fun hhrp => ?_⟩
  have hdata : Words (words ++ createChecksum hrp words) := Words.append hlt (createChecksum_words hlt)
  rw [toLowerCase_append, toLowerCase_append, hhrp, toLowerCase_charsOfValues hdata]
  rfl

end CkbDilithium.Sdk
