import CkbDilithium.Address.Canonical

/-!
# Typing errors are rejected

A string that differs from an accepted address in one character, or by an exchange of two
neighbours, is rejected. In lower case both strings start with `ck`, a letter and the separator, so
an error there changes only the letter that tells the networks apart; that and every error in the
data part reach the checksum as one changed symbol or two exchanged ones. An error that lower case
hides mixes upper and lower case.
-/

namespace CkbDilithium.Sdk

open Js LinearRegister

/-- One character replaced, or two different neighbours exchanged. -/
inductive Typo : JsString → JsString → Prop where
  | substitute (before after : JsString) {x y : UInt16} (hne : x ≠ y) :
      Typo (before ++ x :: after) (before ++ y :: after)
  | exchange (before after : JsString) {x y : UInt16} (hne : x ≠ y) :
      Typo (before ++ x :: y :: after) (before ++ y :: x :: after)

/-! ### The shape of an accepted string -/

/-- The third letter of the prefix of an accepted network. -/
def networkLetter : Network → UInt16
  | .mainnet => 98
  | .testnet | .devnet => 116

/-- An accepted string: one letter case, and in lower case a prefix and a valid data part. -/
structure Accepted (s : JsString) (network : Network) (data : List JsInt32) : Prop where
  singleCase : SingleCase s
  valid : ValidBech32m (toLowerCase s) (hrpForNetwork network) data

theorem accepted_of_decodeCkbAddress {a : JsString} {d : DecodedCkbAddress}
    (h : decodeCkbAddress a = .ok d) : ∃ data, Accepted a d.network data := by
  obtain ⟨-, _, _, _, hdecode, -⟩ := decodeCkbAddress_eq_ok.1 h
  obtain ⟨hcase, data, hvalid, -⟩ := decodeBech32m_eq_ok.1 hdecode
  exact ⟨data, singleCase_of_case_eq hcase, hvalid⟩

theorem Accepted.text {s : JsString} {network : Network} {data : List JsInt32} (h : Accepted s network data) :
    toLowerCase s = 99 :: 107 :: networkLetter network :: 49 :: charsOfValues data := by
  have hprefix : hrpForNetwork network ++ lit "1" = [99, 107, networkLetter network, 49] := by
    cases network <;> decide
  rw [h.valid.text, hprefix]
  rfl

theorem hrpForNetwork_eq_of_letter : ∀ n m : Network, networkLetter n = networkLetter m →
    hrpForNetwork n = hrpForNetwork m := by
  intro n m
  cases n <;> cases m <;> decide

theorem networkLetter_ne_separator (network : Network) : networkLetter network ≠ 49 := by
  cases network <;> decide

/-! ### Errors that lower case hides -/

/-- A letter is upper case or lower case. -/
def isLetter (c : UInt16) : Bool := isUpper c || isLower c

theorem isLetter_of_lowerUnit {c : UInt16} (h : isLower (lowerUnit c) = true) : isLetter c = true := by
  rw [isLower_iff, lowerUnit_toNat] at h
  rw [isLetter, Bool.or_eq_true, isUpper_iff, isLower_iff]
  split_ifs at h <;> omega

/-- Two characters with one lower-case form are one upper-case and one lower-case letter. -/
theorem cases_of_lowerUnit_eq {x y : UInt16} (hne : x ≠ y) (h : lowerUnit x = lowerUnit y) :
    (isUpper x = true ∧ isLower y = true) ∨ (isLower x = true ∧ isUpper y = true) := by
  have hval := congrArg UInt16.toNat h
  have hne' : x.toNat ≠ y.toNat := fun heq => hne (UInt16.toNat_inj.1 heq)
  rw [lowerUnit_toNat, lowerUnit_toNat] at hval
  simp only [isUpper_iff, isLower_iff]
  split_ifs at hval <;> omega

/-- In strings of one case, a common letter fixes the case. -/
theorem SingleCase.eq_of_lowerUnit_eq {s t : JsString} {x y z : UInt16} (hs : SingleCase s)
    (ht : SingleCase t) (hx : x ∈ s) (hy : y ∈ t) (hzs : z ∈ s) (hzt : z ∈ t) (hz : isLetter z = true)
    (h : lowerUnit x = lowerUnit y) : x = y := by
  by_contra hne
  rw [isLetter, Bool.or_eq_true] at hz
  rcases cases_of_lowerUnit_eq hne h with ⟨hxU, hyL⟩ | ⟨hxL, hyU⟩
  · have hsL := hs.resolve_left fun hs => by simp [hs x hx] at hxU
    have htU := ht.resolve_right fun ht => by simp [ht y hy] at hyL
    simp [hsL z hzs, htU z hzt] at hz
  · have hsU := hs.resolve_right fun hs => by simp [hs x hx] at hxL
    have htL := ht.resolve_left fun ht => by simp [ht y hy] at hyU
    simp [hsU z hzs, htL z hzt] at hz

/-- Removing one character leaves a letter of the prefix. -/
theorem Accepted.exists_letter {before after : JsString} {x : UInt16} {network : Network}
    {data : List JsInt32} (h : Accepted (before ++ x :: after) network data) :
    ∃ z ∈ before ++ after, isLetter z = true := by
  have htext := h.text
  have hc : isLower 99 = true ∧ isLower 107 = true := by decide
  cases before with
  | nil =>
    cases after with
    | nil => simp [toLowerCase] at htext
    | cons z after =>
      simp only [List.nil_append, toLowerCase_cons, List.cons.injEq] at htext
      exact ⟨z, by simp, isLetter_of_lowerUnit (by rw [htext.2.1]; exact hc.2)⟩
  | cons z before =>
    simp only [List.cons_append, toLowerCase_cons, List.cons.injEq] at htext
    exact ⟨z, by simp, isLetter_of_lowerUnit (by rw [htext.1]; exact hc.1)⟩

/-! ### Errors in the data part -/

variable {n m : Network} {dataA dataB : List JsInt32}

theorem Words.left {xs ys : List JsInt32} (h : Words (xs ++ ys)) : Words xs :=
  fun v hv => h v (List.mem_append_left _ hv)

theorem Words.right {xs ys : List JsInt32} (h : Words (xs ++ ys)) : Words ys :=
  fun v hv => h v (List.mem_append_right _ hv)

theorem Words.tail {v : JsInt32} {ys : List JsInt32} (h : Words (v :: ys)) : Words ys :=
  fun w hw => h w (List.mem_cons_of_mem _ hw)

theorem charsOfValues_eq_append {data : List JsInt32} (hdata : Words data) {s t : JsString}
    (h : charsOfValues data = s ++ t) :
    ∃ xs ys, data = xs ++ ys ∧ charsOfValues xs = s ∧ charsOfValues ys = t := by
  rw [charsOfValues_eq hdata, List.map_eq_append_iff] at h
  obtain ⟨xs, ys, rfl, hxs, hys⟩ := h
  exact ⟨xs, ys, rfl, by rw [charsOfValues_eq hdata.left, hxs], by rw [charsOfValues_eq hdata.right, hys]⟩

theorem charsOfValues_eq_cons {data : List JsInt32} (hdata : Words data) {x : UInt16} {t : JsString}
    (h : charsOfValues data = x :: t) :
    ∃ v ys, data = v :: ys ∧ charOf v.toNat = x ∧ charsOfValues ys = t := by
  rw [charsOfValues_eq hdata, List.map_eq_cons_iff] at h
  obtain ⟨v, ys, rfl, hv, hys⟩ := h
  exact ⟨v, ys, rfl, hv, by rw [charsOfValues_eq hdata.tail, hys]⟩

theorem charsOfValues_inj {data data' : List JsInt32} (h : Words data) (h' : Words data')
    (heq : charsOfValues data = charsOfValues data') : data = data' := by
  have hread := mapM_charsetValue.2 ⟨h, rfl⟩
  rw [heq, mapM_charsetValue.2 ⟨h', rfl⟩] at hread
  exact (Except.ok.inj hread).symm

theorem eq_of_charOf_eq {v w : JsInt32} {xs ys : List JsInt32} (hv : Words (v :: xs)) (hw : Words (w :: ys))
    (h : charOf v.toNat = charOf w.toNat) : v = w :=
  BitVec.eq_of_toNat_eq (charOf_inj (hv v (by simp)) (hw w (by simp)) h)

/-- One replaced character of the data part. -/
theorem eq_of_data_substitute {hrp before after : JsString} {x y : UInt16} (hA : Words dataA)
    (hB : Words dataB) (hvA : verifyChecksum hrp dataA = true) (hvB : verifyChecksum hrp dataB = true)
    (htextA : charsOfValues dataA = before ++ x :: after)
    (htextB : charsOfValues dataB = before ++ y :: after) : x = y := by
  obtain ⟨xs, rest, rfl, hxs, hrest⟩ := charsOfValues_eq_append hA htextA
  obtain ⟨v, ys, rfl, rfl, hys⟩ := charsOfValues_eq_cons hA.right hrest
  obtain ⟨xs', rest', rfl, hxs', hrest'⟩ := charsOfValues_eq_append hB htextB
  obtain ⟨w, ys', rfl, rfl, hys'⟩ := charsOfValues_eq_cons hB.right hrest'
  obtain rfl := charsOfValues_inj hA.left hB.left (hxs.trans hxs'.symm)
  obtain rfl := charsOfValues_inj hA.right.tail hB.right.tail (hys.trans hys'.symm)
  rw [eq_of_verifyChecksum_substitute hA hB hvA hvB]

/-- Two exchanged characters of the data part. -/
theorem eq_of_data_exchange {hrp before after : JsString} {x y : UInt16} (hA : Words dataA)
    (hB : Words dataB) (hvA : verifyChecksum hrp dataA = true) (hvB : verifyChecksum hrp dataB = true)
    (htextA : charsOfValues dataA = before ++ x :: y :: after)
    (htextB : charsOfValues dataB = before ++ y :: x :: after) : x = y := by
  obtain ⟨xs, rest, rfl, hxs, hrest⟩ := charsOfValues_eq_append hA htextA
  obtain ⟨v, rest₁, rfl, rfl, hrest₁⟩ := charsOfValues_eq_cons hA.right hrest
  obtain ⟨w, ys, rfl, rfl, hys⟩ := charsOfValues_eq_cons hA.right.tail hrest₁
  obtain ⟨xs', rest', rfl, hxs', hrest'⟩ := charsOfValues_eq_append hB htextB
  obtain ⟨w', rest₁', rfl, hw, hrest₁'⟩ := charsOfValues_eq_cons hB.right hrest'
  obtain ⟨v', ys', rfl, hv, hys'⟩ := charsOfValues_eq_cons hB.right.tail hrest₁'
  obtain rfl := charsOfValues_inj hA.left hB.left (hxs.trans hxs'.symm)
  obtain rfl := eq_of_charOf_eq hB.right hA.right.tail hw
  obtain rfl := eq_of_charOf_eq hB.right.tail hA.right hv
  obtain rfl := charsOfValues_inj hA.right.tail.tail hB.right.tail.tail (hys.trans hys'.symm)
  rw [eq_of_verifyChecksum_exchange hA hB hvA hvB]

/-! ### The network letter -/

/-- The symbol of the checksum in which the prefixes differ. -/
def networkSymbol (network : Network) : JsInt32 := charCode (networkLetter network) &&& 31#32

theorem hrpExpand_hrpForNetwork (network : Network) :
    hrpExpand (hrpForNetwork network) = [3#32, 3#32, 3#32, 0#32, 3#32, 11#32] ++ [networkSymbol network] := by
  cases network <;> decide

theorem networkSymbol_lt (network : Network) : (networkSymbol network).toNat < 32 := by
  cases network <;> decide

theorem networkLetter_eq_of_symbol {n m : Network} (h : networkSymbol n = networkSymbol m) :
    networkLetter n = networkLetter m := by
  revert h
  cases n <;> cases m <;> decide

/-- One data part does not suit both prefixes. -/
theorem networkLetter_eq_of_checksum {data : List JsInt32} (hdata : Words data)
    (hn : verifyChecksum (hrpForNetwork n) data = true)
    (hm : verifyChecksum (hrpForNetwork m) data = true) : networkLetter n = networkLetter m := by
  have hrun := ((verifyChecksum_iff hdata).1 hn).trans ((verifyChecksum_iff hdata).1 hm).symm
  rw [hrpExpand_hrpForNetwork, hrpExpand_hrpForNetwork, List.append_assoc, List.append_assoc, registerAfter,
    registerAfter, List.map_append, List.map_append] at hrun
  apply networkLetter_eq_of_symbol
  exact toRegister_inj (networkSymbol_lt n) (networkSymbol_lt m) (eq_of_run_substitute feedbackHom_injective _ _ hrun)

/-! ### The two kinds of error -/

/-- Two accepted strings are not one replacement apart. -/
theorem eq_of_accepted_substitute {before after : JsString} {x y : UInt16}
    (hA : Accepted (before ++ x :: after) n dataA) (hB : Accepted (before ++ y :: after) m dataB) : x = y := by
  have hlower : lowerUnit x = lowerUnit y := by
    have htextA := hA.text
    have htextB := hB.text
    rw [toLowerCase_append, toLowerCase_cons] at htextA htextB
    have hvA := hA.valid.checksum
    have hvB := hB.valid.checksum
    -- the place of the replacement: the four characters before the data part, or the data part
    rcases hbefore : toLowerCase before with _ | ⟨c₀, _ | ⟨c₁, _ | ⟨c₂, _ | ⟨c₃, before'⟩⟩⟩⟩ <;>
      rw [hbefore] at htextA htextB <;>
      simp only [List.nil_append, List.cons_append, List.cons.injEq] at htextA htextB
    · rw [htextA.1, htextB.1]
    · rw [htextA.2.1, htextB.2.1]
    · obtain ⟨-, -, hxn, hdataA⟩ := htextA
      obtain ⟨-, -, hym, hdataB⟩ := htextB
      obtain rfl := charsOfValues_inj hA.valid.words hB.valid.words
        (List.cons.inj (hdataA.symm.trans hdataB)).2
      rw [hxn, hym, networkLetter_eq_of_checksum hA.valid.words hvA hvB]
    · rw [htextA.2.2.2.1, htextB.2.2.2.1]
    · obtain ⟨-, -, hn, -, hdataA⟩ := htextA
      obtain ⟨-, -, hm, -, hdataB⟩ := htextB
      rw [hrpForNetwork_eq_of_letter m n (hm.symm.trans hn)] at hvB
      exact eq_of_data_substitute hA.valid.words hB.valid.words hvA hvB hdataA.symm hdataB.symm
  obtain ⟨z, hz, hletter⟩ := hA.exists_letter
  have hmem : ∀ c, z ∈ before ++ c :: after := fun c => by
    rcases List.mem_append.1 hz with hz | hz <;> simp [hz]
  exact hA.singleCase.eq_of_lowerUnit_eq hB.singleCase (by simp) (by simp) (hmem x) (hmem y) hletter hlower

/-- Two accepted strings are not one exchange apart. -/
theorem eq_of_accepted_exchange {before after : JsString} {x y : UInt16}
    (hA : Accepted (before ++ x :: y :: after) n dataA)
    (hB : Accepted (before ++ y :: x :: after) m dataB) : x = y := by
  have hlower : lowerUnit x = lowerUnit y := by
    have htextA := hA.text
    have htextB := hB.text
    rw [toLowerCase_append, toLowerCase_cons, toLowerCase_cons] at htextA htextB
    have hvA := hA.valid.checksum
    have hvB := hB.valid.checksum
    rcases hbefore : toLowerCase before with _ | ⟨c₀, _ | ⟨c₁, _ | ⟨c₂, _ | ⟨c₃, before'⟩⟩⟩⟩ <;>
      rw [hbefore] at htextA htextB <;>
      simp only [List.nil_append, List.cons_append, List.cons.injEq] at htextA htextB
    · rw [htextA.1, htextB.1]
    · rw [htextA.2.1, htextB.2.1]
    · -- the separator would stand in the place of the network letter
      exact absurd (htextB.2.2.1.symm.trans htextA.2.2.2.1) (networkLetter_ne_separator m)
    · rw [htextA.2.2.2.1, htextB.2.2.2.1]
    · obtain ⟨-, -, hn, -, hdataA⟩ := htextA
      obtain ⟨-, -, hm, -, hdataB⟩ := htextB
      rw [hrpForNetwork_eq_of_letter m n (hm.symm.trans hn)] at hvB
      exact eq_of_data_exchange hA.valid.words hB.valid.words hvA hvB hdataA.symm hdataB.symm
  by_contra hne
  -- both characters stand in one string, so their cases agree
  rcases cases_of_lowerUnit_eq hne hlower with ⟨hx, hy⟩ | ⟨hx, hy⟩ <;>
    rcases hA.singleCase with hcase | hcase <;>
    simp [hcase x (by simp), hcase y (by simp)] at hx hy

/-- **No one-key typing error is accepted**, at any length. -/
theorem decodeCkbAddress_typo {a b : JsString} {d : DecodedCkbAddress} (_ha : Ascii a) (_hb : Ascii b)
    (haccept : decodeCkbAddress a = .ok d) (htypo : Typo a b) : ∃ e, decodeCkbAddress b = .error e := by
  apply Result.exists_error_of_not_ok
  intro d' haccept'
  obtain ⟨dataA, hA⟩ := accepted_of_decodeCkbAddress haccept
  obtain ⟨dataB, hB⟩ := accepted_of_decodeCkbAddress haccept'
  cases htypo with
  | substitute before after hne => exact hne (eq_of_accepted_substitute hA hB)
  | exchange before after hne => exact hne (eq_of_accepted_exchange hA hB)

/-- The sample address with its network letter replaced. -/
theorem decodeCkbAddress_typo_sampleAddress :
    decodeCkbAddress sampleAddress = .ok ⟨.testnet, sampleScript⟩ ∧
      ∃ e, decodeCkbAddress (lit "CK" ++ unit 'B' :: sampleAddress.drop 3) = .error e := by
  refine ⟨decodeCkbAddress_sampleAddress, ?_⟩
  have hsplit : sampleAddress = lit "CK" ++ unit 'T' :: sampleAddress.drop 3 := by decide
  refine decodeCkbAddress_typo (by decide) (by decide) decodeCkbAddress_sampleAddress ?_
  rw [hsplit]
  exact Typo.substitute _ _ (by decide)

end CkbDilithium.Sdk
