import Mathlib.Tactic
import Mathlib.Data.Nat.Digits.Lemmas

/-!
# Big-endian digit lists

`beVal b ds` is the number whose digits in base `b` are `ds`, most significant first, and
`beDigits b n v` the last `n` digits of `v`. A list of digits is determined by its length and its
value (`beVal_inj`), and cutting a fraction after `n` digits rounds it down (`beVal_take_zeros`).
Digits in base `b` taken `k` at a time are digits in base `b ^ k`: writing digits out (`expand`) and
cutting a list into its complete groups (`groups`) do not change the value.
-/

namespace CkbDilithium

/-- The value of a digit list, most significant digit first. -/
def beVal (b : Nat) (ds : List Nat) : Nat := ds.foldl (fun v d => v * b + d) 0

/-- The last `n` digits of `v`, most significant first. -/
def beDigits (b : Nat) : Nat → Nat → List Nat
  | 0, _ => []
  | n + 1, v => beDigits b n (v / b) ++ [v % b]

@[simp] theorem beVal_nil (b : Nat) : beVal b [] = 0 := rfl

@[simp] theorem beVal_concat (b : Nat) (ds : List Nat) (d : Nat) :
    beVal b (ds ++ [d]) = beVal b ds * b + d := by
  simp [beVal]

theorem beVal_cons (b d : Nat) (ds : List Nat) : beVal b (d :: ds) = d * b ^ ds.length + beVal b ds := by
  induction ds using List.reverseRecOn with
  | nil => simp [beVal]
  | append_singleton ds e ih =>
    rw [← List.cons_append, beVal_concat, ih, beVal_concat, List.length_append, List.length_singleton]
    ring

theorem beVal_lt {b : Nat} {ds : List Nat} (h : ∀ d ∈ ds, d < b) : beVal b ds < b ^ ds.length := by
  induction ds using List.reverseRecOn with
  | nil => simp
  | append_singleton ds e ih =>
    have hd : beVal b ds + 1 ≤ b ^ ds.length := ih fun d hd => h d (by simp [hd])
    have he : e < b := h e (by simp)
    rw [beVal_concat, List.length_append, List.length_singleton, pow_succ]
    calc beVal b ds * b + e < (beVal b ds + 1) * b := by rw [add_mul]; omega
      _ ≤ b ^ ds.length * b := Nat.mul_le_mul_right b hd

/-- Digit lists of one length are determined by their value. -/
theorem beVal_inj {b : Nat} {ds es : List Nat} (hlen : ds.length = es.length)
    (hd : ∀ d ∈ ds, d < b) (he : ∀ e ∈ es, e < b) (h : beVal b ds = beVal b es) : ds = es := by
  induction ds using List.reverseRecOn generalizing es with
  | nil => exact (List.length_eq_zero_iff.1 hlen.symm).symm
  | append_singleton ds d ih =>
    obtain rfl | ⟨es, e, rfl⟩ := List.eq_nil_or_concat' es
    · simp at hlen
    have hdlt : d < b := hd d (by simp)
    have helt : e < b := he e (by simp)
    rw [beVal_concat, beVal_concat] at h
    have hb : 0 < b := by omega
    have hdiv : beVal b ds = beVal b es := by
      have := congrArg (· / b) h
      simpa [Nat.mul_comm _ b, Nat.mul_add_div hb, Nat.div_eq_of_lt hdlt, Nat.div_eq_of_lt helt] using this
    obtain rfl : d = e := by rw [hdiv] at h; omega
    rw [ih (by simpa using hlen) (fun x hx => hd x (by simp [hx])) (fun x hx => he x (by simp [hx])) hdiv]

@[simp] theorem beDigits_length (b n v : Nat) : (beDigits b n v).length = n := by
  induction n generalizing v with
  | zero => rfl
  | succ n ih => simp [beDigits, ih]

theorem beDigits_lt {b : Nat} (hb : 0 < b) (n v : Nat) : ∀ d ∈ beDigits b n v, d < b := by
  induction n generalizing v with
  | zero => simp [beDigits]
  | succ n ih =>
    intro d hd
    rcases List.mem_append.1 hd with hd | hd
    · exact ih _ d hd
    · rw [List.mem_singleton.1 hd]
      exact Nat.mod_lt v hb

theorem beVal_beDigits {b n v : Nat} (hb : 0 < b) (h : v < b ^ n) : beVal b (beDigits b n v) = v := by
  induction n generalizing v with
  | zero => simp at h; simp [beDigits, h]
  | succ n ih =>
    have hdiv : v / b < b ^ n := by rwa [Nat.div_lt_iff_lt_mul hb, ← pow_succ]
    rw [beDigits, beVal_concat, ih hdiv, Nat.div_add_mod']

/-! ### Groups of digits -/

/-- Every digit written out with `k` digits in base `b`. -/
def expand (b k : Nat) (ds : List Nat) : List Nat := ds.flatMap (beDigits b k)

/-- The first `n` groups of `k` digits, as their values. -/
def firstGroups (b k n : Nat) (ds : List Nat) : List Nat :=
  (List.range n).map fun i => beVal b ((ds.drop (k * i)).take k)

/-- The complete groups of `k` digits. -/
def groups (b k : Nat) (ds : List Nat) : List Nat := firstGroups b k (ds.length / k) ds

/-- The digits after the complete groups. -/
def leftOver (k : Nat) (ds : List Nat) : List Nat := ds.drop (k * (ds.length / k))

/-- Zeros appended up to a multiple of `k` digits. -/
def padded (k : Nat) (ds : List Nat) : List Nat := ds ++ List.replicate ((k - ds.length % k) % k) 0

/-- There is one number of zeros to append, below `k`. -/
theorem padding_unique {k n p : Nat} (hp : p < k) (h : (n + p) % k = 0) : (k - n % k) % k = p := by
  have hlt : n % k < k := Nat.mod_lt n (by omega)
  rw [Nat.add_mod, Nat.mod_eq_of_lt hp] at h
  by_cases hsmall : n % k + p < k
  · rw [Nat.mod_eq_of_lt hsmall] at h
    have hzero : n % k = 0 := by omega
    rw [hzero, Nat.sub_zero, Nat.mod_self]
    omega
  · rw [Nat.mod_eq_sub_mod (by omega), Nat.mod_eq_of_lt (by omega)] at h
    rw [Nat.mod_eq_of_lt (by omega)]
    omega

theorem beVal_append (b : Nat) (ds es : List Nat) :
    beVal b (ds ++ es) = beVal b ds * b ^ es.length + beVal b es := by
  induction ds with
  | nil => simp
  | cons d ds ih =>
    rw [List.cons_append, beVal_cons, ih, beVal_cons, List.length_append, pow_add]
    ring

theorem beVal_replicate_zero (b n : Nat) : beVal b (List.replicate n 0) = 0 := by
  induction n with
  | zero => rfl
  | succ n ih => rw [List.replicate_succ, beVal_cons, ih, Nat.zero_mul]

theorem beVal_eq_zero {b : Nat} (hb : 0 < b) {ds : List Nat} : beVal b ds = 0 ↔ ∀ d ∈ ds, d = 0 := by
  induction ds with
  | nil => simp
  | cons d ds ih =>
    rw [beVal_cons, Nat.add_eq_zero_iff, ih, Nat.mul_eq_zero, List.forall_mem_cons]
    simp [hb.ne']

/-- The first `n` digits after the point: the value of the digits as a fraction, times `b ^ n`, rounded down. -/
theorem beVal_take_zeros {b : Nat} (hb : 0 < b) (n : Nat) {ds : List Nat} (h : ∀ d ∈ ds, d < b) :
    beVal b ((ds ++ List.replicate n 0).take n) = beVal b ds * b ^ n / b ^ ds.length := by
  have hlt : beVal b ((ds ++ List.replicate n 0).drop n) < b ^ ds.length := by
    have hlen : ((ds ++ List.replicate n 0).drop n).length = ds.length := by simp
    rw [← hlen]
    apply beVal_lt
    intro d hd
    rcases List.mem_append.1 (List.mem_of_mem_drop hd) with hd | hd
    · exact h d hd
    · rwa [List.eq_of_mem_replicate hd]
  -- Cut the padded digits after `n`: as many are left as there were at first.
  have hcut : beVal b ds * b ^ n =
      b ^ ds.length * beVal b ((ds ++ List.replicate n 0).take n) + beVal b ((ds ++ List.replicate n 0).drop n) := by
    have hwhole := beVal_append b ((ds ++ List.replicate n 0).take n) ((ds ++ List.replicate n 0).drop n)
    rw [List.take_append_drop, beVal_append, beVal_replicate_zero, List.length_replicate] at hwhole
    simpa [Nat.mul_comm] using hwhole
  rw [hcut, Nat.mul_add_div (Nat.pow_pos hb), Nat.div_eq_of_lt hlt, Nat.add_zero]

theorem expand_length (b k : Nat) (ds : List Nat) : (expand b k ds).length = k * ds.length := by
  induction ds with
  | nil => simp [expand]
  | cons d ds ih =>
    rw [expand, List.flatMap_cons, List.length_append, ← expand, ih, beDigits_length, List.length_cons]
    ring

theorem expand_lt {b : Nat} (hb : 0 < b) (k : Nat) (ds : List Nat) : ∀ d ∈ expand b k ds, d < b := by
  intro d hd
  obtain ⟨e, -, he⟩ := List.mem_flatMap.1 hd
  exact beDigits_lt hb k e d he

/-- Digits in base `b ^ k` written out in base `b` have the same value. -/
theorem beVal_expand {b k : Nat} (hb : 0 < b) {ds : List Nat} (h : ∀ d ∈ ds, d < b ^ k) :
    beVal b (expand b k ds) = beVal (b ^ k) ds := by
  induction ds with
  | nil => rfl
  | cons d ds ih =>
    rw [List.forall_mem_cons] at h
    rw [expand, List.flatMap_cons, ← expand, beVal_append, beVal_beDigits hb h.1, ih h.2, expand_length,
      beVal_cons, pow_mul]

@[simp] theorem firstGroups_length (b k n : Nat) (ds : List Nat) : (firstGroups b k n ds).length = n := by
  simp [firstGroups]

theorem firstGroups_lt {b k n : Nat} {ds : List Nat} (hb : 0 < b) (h : ∀ d ∈ ds, d < b) :
    ∀ g ∈ firstGroups b k n ds, g < b ^ k := by
  intro g hg
  obtain ⟨i, -, rfl⟩ := List.mem_map.1 hg
  have hlt : beVal b ((ds.drop (k * i)).take k) < b ^ ((ds.drop (k * i)).take k).length :=
    beVal_lt fun d hd => h d (List.mem_of_mem_drop (List.mem_of_mem_take hd))
  exact lt_of_lt_of_le hlt (Nat.pow_le_pow_right hb (List.length_take_le ..))

/-- Groups of digits are digits of the same number. -/
theorem beVal_firstGroups {b k n : Nat} {ds : List Nat} (h : k * n ≤ ds.length) :
    beVal (b ^ k) (firstGroups b k n ds) = beVal b (ds.take (k * n)) := by
  induction n with
  | zero => simp [firstGroups]
  | succ n ih =>
    rw [Nat.mul_succ] at h
    have hgroup : ((ds.drop (k * n)).take k).length = k := by
      rw [List.length_take, List.length_drop]
      omega
    rw [firstGroups, List.range_succ, List.map_append, List.map_singleton, beVal_concat, ← firstGroups,
      ih (by omega), Nat.mul_succ, List.take_add, beVal_append, hgroup]

end CkbDilithium
