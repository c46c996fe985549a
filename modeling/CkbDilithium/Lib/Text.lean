import Mathlib.Tactic
import Mathlib.Data.Nat.Digits.Lemmas
import Mathlib.Data.List.Sort

/-!
# Strings of code units and digit strings

A JavaScript string is the sequence of its UTF-16 code units, so `length` and `slice` are those of
the list. `digitVal?` and `parseDigits` read digit strings in a base up to 36, `toRadix` prints the
canonical one. The two facts every user needs are `parseDigits_toRadix` (printing is undone by
reading) and `toRadix_parseDigitsFrom` (a digit string without leading zeros is, in lower case, the
printed form of its value).
-/

namespace CkbDilithium.Js

/-- A string, as its UTF-16 code units. -/
abbrev JsString := List UInt16

/-- The code unit of a character of the basic plane. -/
def unit (c : Char) : UInt16 := UInt16.ofNat c.toNat

/-- A string literal of the source. -/
def lit (s : String) : JsString := s.toList.map unit

/-- Every code unit is a 7-bit one. -/
def Ascii (s : JsString) : Prop := ∀ c ∈ s, c < 128

instance (s : JsString) : Decidable (Ascii s) := List.decidableBAll (· < 128) s

/-- `s.lastIndexOf(c)` for a single code unit, `-1` when there is none. -/
def lastIndexOf (s : JsString) (c : UInt16) : Int :=
  match s.reverse.idxOf? c with
  | some i => s.length - 1 - i
  | none => -1

/-! ### The last separator -/

theorem lastIndexOf_append {head tail : JsString} {c : UInt16} (htail : c ∉ tail) :
    lastIndexOf (head ++ c :: tail) c = head.length := by
  have hreverse : (head ++ c :: tail).reverse = tail.reverse ++ c :: head.reverse := by simp
  have hidx : (tail.reverse ++ c :: head.reverse).idxOf? c = some tail.length := by
    rw [List.idxOf?, List.findIdx?_append, List.findIdx?_eq_none_iff.2]
    · simp [List.findIdx?_cons]
    · intro d hd
      rw [beq_eq_false_iff_ne]
      rintro rfl
      exact htail (List.mem_reverse.1 hd)
  simp only [lastIndexOf, hreverse, hidx, List.length_append, List.length_cons]
  omega

/-- An index that is found splits the string at the last occurrence. -/
theorem split_of_lastIndexOf {s : JsString} {c : UInt16} (h : 0 ≤ lastIndexOf s c) :
    ∃ head tail, s = head ++ c :: tail ∧ c ∉ tail := by
  by_cases hmem : c ∈ s
  · obtain ⟨tail, head, hsplit, htail⟩ := List.eq_append_cons_of_mem (List.mem_reverse.2 hmem)
    refine ⟨head.reverse, tail.reverse, ?_, by simpa using htail⟩
    rw [← List.reverse_reverse s, hsplit]
    simp
  · have hnone : s.reverse.idxOf? c = none := by
      rw [List.idxOf?_eq_none_iff]
      simpa using hmem
    simp [lastIndexOf, hnone] at h

/-! ### Case, on 7-bit code units -/

def isUpper (c : UInt16) : Bool := 65 ≤ c && c ≤ 90

def isLower (c : UInt16) : Bool := 97 ≤ c && c ≤ 122

def lowerUnit (c : UInt16) : UInt16 := if isUpper c then c + 32 else c

def upperUnit (c : UInt16) : UInt16 := if isLower c then c - 32 else c

def toLowerCase (s : JsString) : JsString := s.map lowerUnit

def toUpperCase (s : JsString) : JsString := s.map upperUnit

theorem isUpper_iff (c : UInt16) : isUpper c = true ↔ 65 ≤ c.toNat ∧ c.toNat ≤ 90 := by
  simp [isUpper, UInt16.le_iff_toNat_le]

theorem isLower_iff (c : UInt16) : isLower c = true ↔ 97 ≤ c.toNat ∧ c.toNat ≤ 122 := by
  simp [isLower, UInt16.le_iff_toNat_le]

theorem lowerUnit_toNat (c : UInt16) :
    (lowerUnit c).toNat = if 65 ≤ c.toNat ∧ c.toNat ≤ 90 then c.toNat + 32 else c.toNat := by
  unfold lowerUnit
  by_cases h : isUpper c = true
  · have h' := (isUpper_iff c).1 h
    rw [if_pos h, if_pos h', UInt16.toNat_add]
    show (c.toNat + 32) % 2 ^ 16 = _
    omega
  · rw [if_neg h, if_neg (fun h' => h ((isUpper_iff c).2 h'))]

theorem upperUnit_toNat (c : UInt16) :
    (upperUnit c).toNat = if 97 ≤ c.toNat ∧ c.toNat ≤ 122 then c.toNat - 32 else c.toNat := by
  unfold upperUnit
  by_cases h : isLower c = true
  · have h' := (isLower_iff c).1 h
    rw [if_pos h, if_pos h', UInt16.toNat_sub]
    show (2 ^ 16 - 32 + c.toNat) % 2 ^ 16 = _
    omega
  · rw [if_neg h, if_neg (fun h' => h ((isLower_iff c).2 h'))]

theorem lowerUnit_lowerUnit (c : UInt16) : lowerUnit (lowerUnit c) = lowerUnit c := by
  apply UInt16.toNat_inj.1
  rw [lowerUnit_toNat, lowerUnit_toNat]
  split_ifs <;> omega

@[simp] theorem toLowerCase_toLowerCase (s : JsString) : toLowerCase (toLowerCase s) = toLowerCase s := by
  rw [toLowerCase, toLowerCase, List.map_map]
  exact List.map_congr_left fun c _ => lowerUnit_lowerUnit c

@[simp] theorem toLowerCase_append (s t : JsString) :
    toLowerCase (s ++ t) = toLowerCase s ++ toLowerCase t := List.map_append

@[simp] theorem toLowerCase_cons (c : UInt16) (s : JsString) :
    toLowerCase (c :: s) = lowerUnit c :: toLowerCase s := rfl

/-! ### Digits -/

/-- The value of a digit in base `b`: `0`–`9`, then letters of either case. -/
def digitVal? (b : Nat) (c : UInt16) : Option Nat :=
  let d :=
    if 48 ≤ c.toNat ∧ c.toNat ≤ 57 then c.toNat - 48
    else if 97 ≤ c.toNat ∧ c.toNat ≤ 122 then c.toNat - 87
    else if 65 ≤ c.toNat ∧ c.toNat ≤ 90 then c.toNat - 55
    else b
  if d < b then some d else none

/-- Reading on from the value `acc` of the digits before. -/
def parseDigitsFrom (b : Nat) : Nat → JsString → Option Nat
  | acc, [] => some acc
  | acc, c :: s => (digitVal? b c).bind fun d => parseDigitsFrom b (acc * b + d) s

/-- The value of a non-empty digit string. -/
def parseDigits (b : Nat) (s : JsString) : Option Nat :=
  if s = [] then none else parseDigitsFrom b 0 s

/-- The canonical digits of `n`, lower case, as `toString(b)` prints them. -/
def toRadix (b n : Nat) : JsString := (Nat.toDigits b n).map unit

/-- The lower-case digit of value `d`. -/
def digitUnit (d : Nat) : UInt16 := unit d.digitChar

theorem digitVal?_lt {b : Nat} {c : UInt16} {d : Nat} (h : digitVal? b c = some d) : d < b := by
  unfold digitVal? at h
  simp only at h
  split_ifs at h <;> simp_all

theorem digitVal?_digitUnit : ∀ d < 16, digitVal? 16 (digitUnit d) = some d := by decide

theorem digitVal?_digitUnit_ten : ∀ d < 10, digitVal? 10 (digitUnit d) = some d := by decide

theorem isSome_digitUnit {d : Nat} (h : d < 16) : (digitVal? 16 (digitUnit d)).isSome := by
  rw [digitVal?_digitUnit d h]
  rfl

theorem digitUnit_toNat : ∀ d < 16, (digitUnit d).toNat = if d < 10 then d + 48 else d + 87 := by decide

/-- The lower-case form of a hexadecimal digit is the digit that is printed for its value. -/
theorem lowerUnit_of_digitVal? {c : UInt16} {d : Nat} (h : digitVal? 16 c = some d) :
    lowerUnit c = digitUnit d := by
  have hd := digitVal?_lt h
  apply UInt16.toNat_inj.mp
  rw [lowerUnit_toNat, digitUnit_toNat d hd]
  unfold digitVal? at h
  simp only at h
  split_ifs at h <;> simp only [Option.some.injEq] at h <;> split_ifs <;> omega

@[simp] theorem parseDigitsFrom_append (b acc : Nat) (s t : JsString) :
    parseDigitsFrom b acc (s ++ t) = (parseDigitsFrom b acc s).bind fun v => parseDigitsFrom b v t := by
  induction s generalizing acc with
  | nil => rfl
  | cons c s ih =>
    simp only [List.cons_append, parseDigitsFrom]
    cases digitVal? b c with
    | none => rfl
    | some d => exact ih _

theorem parseDigits_of_ne_nil {b : Nat} {s : JsString} (hs : s ≠ []) :
    parseDigits b s = parseDigitsFrom b 0 s := if_neg hs

theorem toRadix_ne_nil (b n : Nat) : toRadix b n ≠ [] := by
  simp [toRadix, Nat.toDigits_ne_nil]

theorem toRadix_of_lt {b n : Nat} (h : n < b) : toRadix b n = [digitUnit n] := by
  simp [toRadix, Nat.toDigits_of_lt_base h, digitUnit]

theorem toRadix_of_le {b n : Nat} (hb : 1 < b) (h : b ≤ n) :
    toRadix b n = toRadix b (n / b) ++ [digitUnit (n % b)] := by
  simp [toRadix, Nat.toDigits_of_base_le hb h, digitUnit]

/-- Reading undoes printing, in any base whose digits `digitUnit` prints. -/
theorem parseDigits_toRadix_of {b : Nat} (hb : 1 < b)
    (hdigit : ∀ d < b, digitVal? b (digitUnit d) = some d) (n : Nat) :
    parseDigits b (toRadix b n) = some n := by
  rw [parseDigits_of_ne_nil (toRadix_ne_nil b n)]
  induction n using Nat.strong_induction_on with
  | _ n ih =>
    by_cases h : n < b
    · simp [toRadix_of_lt h, parseDigitsFrom, hdigit n h]
    · have hdiv : n / b < n := Nat.div_lt_self (by omega) hb
      rw [toRadix_of_le hb (by omega), parseDigitsFrom_append, ih _ hdiv]
      simp [parseDigitsFrom, hdigit _ (Nat.mod_lt n (by omega)), Nat.div_add_mod']

theorem parseDigits_toRadix (n : Nat) : parseDigits 16 (toRadix 16 n) = some n :=
  parseDigits_toRadix_of (by decide) digitVal?_digitUnit n

theorem parseDigits_toRadix_ten (n : Nat) : parseDigits 10 (toRadix 10 n) = some n :=
  parseDigits_toRadix_of (by decide) digitVal?_digitUnit_ten n

/-- A hexadecimal digit string that does not start with `0` is, in lower case, the printed form of
its value. -/
theorem toRadix_parseDigitsFrom {c : UInt16} {s : JsString} {v : Nat} (hc : c ≠ 48)
    (h : parseDigitsFrom 16 0 (c :: s) = some v) : toRadix 16 v = toLowerCase (c :: s) ∧ 0 < v := by
  -- the last digit is the remainder of the value, the digits before it print the quotient
  induction s using List.reverseRecOn generalizing v with
  | nil =>
    simp only [parseDigitsFrom, Option.bind_eq_some_iff, zero_mul, zero_add, Option.some.injEq] at h
    obtain ⟨d, hd, rfl⟩ := h
    have hlt := digitVal?_lt hd
    refine ⟨?_, ?_⟩
    · rw [toRadix_of_lt hlt, toLowerCase_cons, lowerUnit_of_digitVal? hd]
      rfl
    · rcases Nat.eq_zero_or_pos d with rfl | hpos
      · refine absurd (UInt16.toNat_inj.mp ?_) hc
        have hzero := congrArg UInt16.toNat (lowerUnit_of_digitVal? hd)
        rw [lowerUnit_toNat] at hzero
        have h48 : (digitUnit 0).toNat = 48 := by decide
        have h48' : (48 : UInt16).toNat = 48 := by decide
        split_ifs at hzero <;> omega
      · exact hpos
  | append_singleton s e ih =>
    rw [← List.cons_append, parseDigitsFrom_append, Option.bind_eq_some_iff] at h
    obtain ⟨w, hw, he⟩ := h
    simp only [parseDigitsFrom, Option.bind_eq_some_iff, Option.some.injEq] at he
    obtain ⟨d, hd, rfl⟩ := he
    obtain ⟨hprint, hpos⟩ := ih hw
    have hlt := digitVal?_lt hd
    refine ⟨?_, by omega⟩
    rw [toRadix_of_le (by decide) (by omega), show (w * 16 + d) / 16 = w by omega,
      show (w * 16 + d) % 16 = d by omega, hprint, ← List.cons_append, toLowerCase_append,
      ← lowerUnit_of_digitVal? hd]
    rfl

end CkbDilithium.Js
