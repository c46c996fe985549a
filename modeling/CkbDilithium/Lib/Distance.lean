import CkbDilithium.Lib.LinearRegister
import Mathlib.Algebra.BigOperators.Group.Finset.Basic
import Mathlib.Data.List.GetD

/-!
# The distance of a register code

When does a linear register notice several wrong symbols? Suppose that additive maps `S 0, …, S (k - 1)` turn
its step into consecutive powers of one operator `B`, and that they agree on the symbols. A difference of
symbols that goes unnoticed is then a solution of `k` power sums in `B`; as long as no two of the
powers of `B` that occur agree on a nonzero element, elimination leaves nothing in up to `k` places
(`eq_zero_of_powerSums`), so that inputs with one final state are equal or differ in more than `k` places
(`Roots.eq_of_run_eq`). The powers are separated when `B` moves one element through all the others
(`separates_of_orbit`).
-/

namespace CkbDilithium.LinearRegister

variable {V W : Type*} [AddCommGroup V] [AddCommGroup W] {T : V →+ V} {B : AddMonoid.End W}

/-! ### Power sums -/

theorem pow_add_apply (B : AddMonoid.End W) (p q : Nat) (x : W) : (B ^ (p + q)) x = (B ^ p) ((B ^ q) x) := by
  rw [pow_add]
  rfl

/-- Powers of `B` below `n` agree only at zero. -/
def Separates (B : AddMonoid.End W) (n : Nat) : Prop :=
  ∀ p < n, ∀ q < n, p ≠ q → ∀ x, (B ^ p) x = (B ^ q) x → x = 0

/-- Elimination: as many power sums as there are places have only the zero solution. -/
theorem eq_zero_of_powerSums {n : Nat} (hB : Separates B n) {s : Finset Nat} (hs : ∀ p ∈ s, p < n) {u : Nat → W}
    (hsums : ∀ m < s.card, ∑ p ∈ s, (B ^ (m * p)) (u p) = 0) : ∀ p ∈ s, u p = 0 := by
  classical
  induction s using Finset.induction_on generalizing u with
  | empty => simp
  | insert q s hq ih =>
    rw [Finset.card_insert_of_notMem hq] at hsums
    simp only [Finset.sum_insert hq] at hsums
    -- Subtracting `B ^ q` times one sum from the next cancels the place `q`.
    have hrest : ∀ p ∈ s, (B ^ p) (u p) - (B ^ q) (u p) = 0 := by
      apply ih fun p hp => hs p (Finset.mem_insert_of_mem hp)
      intro m hm
      have hthis := congrArg (B ^ q) (hsums m (by omega))
      have hnext := hsums (m + 1) (by omega)
      rw [map_add, map_sum, map_zero, ← pow_add_apply] at hthis
      calc ∑ p ∈ s, (B ^ (m * p)) ((B ^ p) (u p) - (B ^ q) (u p))
          = ∑ p ∈ s, (B ^ ((m + 1) * p)) (u p) - ∑ p ∈ s, (B ^ q) ((B ^ (m * p)) (u p)) := by
            rw [← Finset.sum_sub_distrib]
            apply Finset.sum_congr rfl
            intro p _
            rw [map_sub, ← pow_add_apply, ← pow_add_apply, ← pow_add_apply, Nat.add_comm q, Nat.add_mul, Nat.one_mul]
        _ = 0 := by
            rw [Nat.add_comm q, ← Nat.succ_mul] at hthis
            rw [← add_sub_add_left_eq_sub _ _ ((B ^ ((m + 1) * q)) (u q)), hnext, hthis, sub_self]
    have hzero : ∀ p ∈ s, u p = 0 := by
      intro p hp
      have hne : p ≠ q := fun heq => hq (heq ▸ hp)
      exact hB p (hs p (Finset.mem_insert_of_mem hp)) q (hs q (Finset.mem_insert_self q s)) hne _
        (sub_eq_zero.1 (hrest p hp))
    have hfirst := hsums 0 (by omega)
    rw [Finset.sum_eq_zero fun p hp => by rw [hzero p hp, map_zero]] at hfirst
    intro p hp
    rcases Finset.mem_insert.1 hp with rfl | hp
    · simpa using hfirst
    · exact hzero p hp

/-- An operator that moves `e` through every nonzero element, and back to `e` only after `n` steps. -/
theorem separates_of_orbit {n : Nat} {e : W} (hinjective : Function.Injective B)
    (horbit : ∀ x, x ≠ 0 → ∃ k, (B ^ k) e = x) (hreturn : ∀ d, 0 < d → d < n → (B ^ d) e ≠ e) : Separates B n := by
  have hpow : ∀ k : Nat, Function.Injective ⇑(B ^ k) := hinjective.iterate
  -- A power that fixes one nonzero element fixes `e`.
  have hfix : ∀ d, 0 < d → d < n → ∀ x, (B ^ d) x = x → x = 0 := by
    intro d hd hdn x hx
    by_contra hne
    obtain ⟨k, rfl⟩ := horbit x hne
    apply hreturn d hd hdn
    apply hpow k
    rw [← pow_add_apply, Nat.add_comm, pow_add_apply, hx]
  have hlt : ∀ p q, p < q → q < n → ∀ x, (B ^ p) x = (B ^ q) x → x = 0 := by
    intro p q hpq hq x hx
    obtain ⟨d, rfl⟩ := Nat.exists_eq_add_of_lt hpq
    rw [Nat.add_assoc, pow_add_apply] at hx
    exact hfix (d + 1) (by omega) (by omega) x (hpow p hx).symm
  intro p hp q hq hne x hx
  rcases Nat.lt_or_gt_of_ne hne with hpq | hqp
  · exact hlt p q hpq hq x hx
  · exact hlt q p hqp hp x hx.symm

/-! ### Runs as sums -/

/-- The symbol that `p` more symbols follow. -/
def symbolAt (ds : List V) (p : Nat) : V := ds.reverse.getD p 0

theorem symbolAt_concat_zero (ds : List V) (d : V) : symbolAt (ds ++ [d]) 0 = d := by
  simp [symbolAt]

theorem symbolAt_concat_succ (ds : List V) (d : V) (p : Nat) : symbolAt (ds ++ [d]) (p + 1) = symbolAt ds p := by
  simp [symbolAt]

theorem exists_symbolAt {ds : List V} {d : V} (h : d ∈ ds) : ∃ p < ds.length, symbolAt ds p = d := by
  obtain ⟨p, hp, rfl⟩ := List.getElem_of_mem (List.mem_reverse.2 h)
  exact ⟨p, by simpa using hp, List.getD_eq_getElem _ _ hp⟩

theorem symbolAt_mem {ds : List V} {p : Nat} (hp : p < ds.length) : symbolAt ds p ∈ ds := by
  have hlt : p < ds.reverse.length := by simpa using hp
  rw [symbolAt, List.getD_eq_getElem _ _ hlt]
  exact List.mem_reverse.1 (List.getElem_mem hlt)

/-- From the zero state every symbol is fed back once for each symbol that follows it. -/
theorem run_zero_eq_sum (T : V →+ V) (ds : List V) :
    run T 0 ds = ∑ p ∈ Finset.range ds.length, T^[p] (symbolAt ds p) := by
  induction ds using List.reverseRecOn with
  | nil => rfl
  | append_singleton ds d ih =>
    have hrun : run T 0 (ds ++ [d]) = T (run T 0 ds) + d := run_append T 0 ds [d]
    rw [hrun, ih, List.length_append, List.length_singleton, Finset.sum_range_succ', symbolAt_concat_zero,
      map_sum]
    congr 1
    apply Finset.sum_congr rfl
    intro p _
    rw [symbolAt_concat_succ, Function.iterate_succ_apply']

theorem card_support [DecidableEq V] (ds : List V) :
    ((Finset.range ds.length).filter fun p => symbolAt ds p ≠ 0).card = ds.countP fun d => d ≠ 0 := by
  induction ds using List.reverseRecOn with
  | nil => rfl
  | append_singleton ds d ih =>
    rw [Finset.card_filter] at ih ⊢
    rw [List.length_append, List.length_singleton, Finset.sum_range_succ', symbolAt_concat_zero,
      List.countP_append, List.countP_singleton, ← ih]
    simp only [symbolAt_concat_succ, decide_eq_true_eq]

/-- The states differ by the run on the differences. -/
theorem run_sub_run (T : V →+ V) (c d : V) {vs ws : List V} (hlen : vs.length = ws.length) :
    run T c vs - run T d ws = run T (c - d) (List.zipWith (· - ·) vs ws) := by
  induction vs generalizing c d ws with
  | nil =>
    obtain rfl := List.length_eq_zero_iff.1 hlen.symm
    rfl
  | cons v vs ih =>
    cases ws with
    | nil => cases hlen
    | cons w ws =>
      rw [run_cons, run_cons, List.zipWith_cons_cons, run_cons, ih _ _ (Nat.succ.inj hlen), map_sub,
        add_sub_add_comm]

/-! ### Places that differ -/

/-- The number of places in which two lists differ. -/
def differences {α : Type*} [DecidableEq α] (s t : List α) : Nat := (s.zip t).countP fun p => p.1 ≠ p.2

section Differences

variable {α β : Type*} [DecidableEq α] [DecidableEq β]

theorem differences_cons (x y : α) (s t : List α) :
    differences (x :: s) (y :: t) = (if x = y then 0 else 1) + differences s t := by
  rw [differences, List.zip_cons_cons, List.countP_cons, ← differences, Nat.add_comm]
  by_cases h : x = y <;> simp [h]

theorem differences_self (s : List α) : differences s s = 0 := by
  induction s with
  | nil => rfl
  | cons x s ih => rw [differences_cons, if_pos rfl, ih]

theorem eq_of_differences_eq_zero {s t : List α} (hlen : s.length = t.length) (h : differences s t = 0) : s = t := by
  induction s generalizing t with
  | nil => exact (List.length_eq_zero_iff.1 hlen.symm).symm
  | cons x s ih =>
    cases t with
    | nil => cases hlen
    | cons y t =>
      rw [differences_cons, Nat.add_eq_zero_iff, ite_eq_left_iff] at h
      have hxy : x = y := by
        by_contra hne
        exact absurd (h.1 hne) (by decide)
      rw [hxy, ih (Nat.succ.inj hlen) h.2]

/-- A function does not add differences. -/
theorem differences_map_le (f : α → β) (s t : List α) : differences (s.map f) (t.map f) ≤ differences s t := by
  rw [differences, differences, List.zip_map, List.countP_map]
  apply List.countP_mono_left
  intro p _ hp
  simp only [Function.comp_apply, Prod.map, decide_eq_true_eq] at hp ⊢
  exact fun heq => hp (congrArg f heq)

/-- A function that tells the elements apart removes none. -/
theorem differences_le_map {f : α → β} {s t : List α} (hf : ∀ x ∈ s, ∀ y ∈ t, f x = f y → x = y) :
    differences s t ≤ differences (s.map f) (t.map f) := by
  rw [differences, differences, List.zip_map, List.countP_map]
  apply List.countP_mono_left
  intro p hp hne
  simp only [Function.comp_apply, Prod.map, decide_eq_true_eq] at hne ⊢
  exact fun heq => hne (hf p.1 (List.of_mem_zip hp).1 p.2 (List.of_mem_zip hp).2 heq)

theorem countP_sub [DecidableEq V] (vs ws : List V) :
    (List.zipWith (· - ·) vs ws).countP (fun d => d ≠ 0) = differences vs ws := by
  rw [differences, ← List.map_uncurry_zip_eq_zipWith, List.countP_map]
  apply List.countP_congr
  intro p _
  simp [Function.uncurry, sub_eq_zero]

end Differences

/-! ### Consecutive roots -/

/-- Additive maps that turn the step of the register into consecutive powers of `B`, agree on the symbols
and lose none. -/
structure Roots (T : V →+ V) (B : AddMonoid.End W) (first k : Nat) (S : Nat → V →+ W)
    (IsSymbol : V → Prop) : Prop where
  step : ∀ m < k, ∀ c, S m (T c) = (B ^ (first + m)) (S m c)
  symbol : ∀ m < k, ∀ v, IsSymbol v → S m v = S 0 v
  eq_zero : ∀ v, IsSymbol v → S 0 v = 0 → v = 0

section Roots

variable {first k n : Nat} {S : Nat → V →+ W} {IsSymbol : V → Prop}

theorem Roots.pow_step (h : Roots T B first k S IsSymbol) {m : Nat} (hm : m < k) (p : Nat) (c : V) :
    S m (T^[p] c) = (B ^ ((first + m) * p)) (S m c) := by
  induction p with
  | zero => rfl
  | succ p ih =>
    rw [Function.iterate_succ_apply', h.step m hm, ih, ← pow_add_apply, Nat.mul_succ, Nat.add_comm]

/-- A run on at most `k` nonzero symbols does not return to zero. -/
theorem Roots.eq_zero_of_run [DecidableEq V] (h : Roots T B first k S IsSymbol) (hB : Separates B n)
    (hinjective : Function.Injective B) {ds : List V} (hsymbols : ∀ d ∈ ds, IsSymbol d) (hlen : ds.length ≤ n)
    (hfew : ds.countP (fun d => d ≠ 0) ≤ k) (hrun : run T 0 ds = 0) : ∀ d ∈ ds, d = 0 := by
  rw [← card_support] at hfew
  set support := (Finset.range ds.length).filter fun p => symbolAt ds p ≠ 0 with hsupport
  have hsymbol : ∀ p ∈ support, p < ds.length ∧ IsSymbol (symbolAt ds p) := by
    intro p hp
    have hlt := Finset.mem_range.1 (Finset.mem_filter.1 hp).1
    exact ⟨hlt, hsymbols _ (symbolAt_mem hlt)⟩
  have hsums : ∀ m < support.card,
      ∑ p ∈ support, (B ^ (m * p)) ((B ^ (first * p)) (S 0 (symbolAt ds p))) = 0 := by
    intro m hm
    have hm : m < k := by omega
    have hvalue := congrArg (S m) hrun
    rw [run_zero_eq_sum, map_sum, map_zero] at hvalue
    rw [← hvalue, hsupport, Finset.sum_filter]
    apply Finset.sum_congr rfl
    intro p hp
    by_cases hzero : symbolAt ds p = 0
    · rw [if_neg (not_not.2 hzero), hzero, iterate_map_zero, map_zero]
    · rw [if_pos hzero, h.pow_step hm, h.symbol m hm _ (hsymbols _ (symbolAt_mem (Finset.mem_range.1 hp))),
        ← pow_add_apply, ← Nat.add_mul, Nat.add_comm m]
  have hvanish := eq_zero_of_powerSums hB (fun p hp => by have := (hsymbol p hp).1; omega) hsums
  intro d hd
  obtain ⟨p, hp, rfl⟩ := exists_symbolAt hd
  by_contra hne
  have hmem : p ∈ support := Finset.mem_filter.2 ⟨Finset.mem_range.2 hp, hne⟩
  apply hne
  apply h.eq_zero _ (hsymbol p hmem).2
  apply hinjective.iterate (first * p)
  rw [iterate_map_zero]
  exact hvanish p hmem

/-- **The distance of the code**: inputs with one final state that differ in at most `k` places are equal. -/
theorem Roots.eq_of_run_eq [DecidableEq V] (h : Roots T B first k S IsSymbol) (hB : Separates B n)
    (hinjective : Function.Injective B) {c : V} {vs ws : List V} (hlen : vs.length = ws.length)
    (hsymbols : ∀ v ∈ vs, ∀ w ∈ ws, IsSymbol (v - w)) (hn : vs.length ≤ n) (hfew : differences vs ws ≤ k)
    (hrun : run T c vs = run T c ws) : vs = ws := by
  have hzero : run T 0 (List.zipWith (· - ·) vs ws) = 0 := by
    have hsub := run_sub_run T c c hlen
    rw [hrun, sub_self, sub_self] at hsub
    exact hsub.symm
  have hdifferences := h.eq_zero_of_run hB hinjective ?_ ?_ (by rwa [countP_sub]) hzero
  · apply eq_of_differences_eq_zero hlen
    rw [← countP_sub, List.countP_eq_zero]
    intro d hd
    simp [hdifferences d hd]
  · intro d hd
    rw [← List.map_uncurry_zip_eq_zipWith] at hd
    obtain ⟨p, hp, rfl⟩ := List.mem_map.1 hd
    exact hsymbols p.1 (List.of_mem_zip hp).1 p.2 (List.of_mem_zip hp).2
  · rw [List.length_zipWith]
    omega

end Roots

/-! ### Maps of words -/

/-- Maps of words that are additive in exclusive or agree when they agree on single bits. -/
theorem eq_of_xor {w v : Nat} {f g : BitVec w → BitVec v} (hf : ∀ a b, f (a ^^^ b) = f a ^^^ f b)
    (hg : ∀ a b, g (a ^^^ b) = g a ^^^ g b) (h : ∀ i < w, f (BitVec.twoPow w i) = g (BitVec.twoPow w i))
    (c : BitVec w) : f c = g c := by
  have hzero : ∀ {f : BitVec w → BitVec v}, (∀ a b, f (a ^^^ b) = f a ^^^ f b) → f 0#w = 0#v := by
    intro f hf
    have hsum := hf 0#w 0#w
    rwa [BitVec.xor_self, BitVec.xor_self] at hsum
  -- By induction on the number of low bits that may be set.
  have hlow : ∀ k ≤ w, ∀ c : BitVec w, c.toNat < 2 ^ k → f c = g c := by
    intro k
    induction k with
    | zero =>
      intro _ c hc
      obtain rfl : c = 0#w := BitVec.eq_of_toNat_eq (by simpa using hc)
      rw [hzero hf, hzero hg]
    | succ k ih =>
      intro hk c hc
      by_cases hbit : c.toNat < 2 ^ k
      · exact ih (by omega) c hbit
      · have hsplit : c = (c ^^^ BitVec.twoPow w k) ^^^ BitVec.twoPow w k := by
          rw [BitVec.xor_assoc, BitVec.xor_self, BitVec.xor_zero]
        have hrest : (c ^^^ BitVec.twoPow w k).toNat < 2 ^ k := by
          apply Nat.lt_pow_two_of_testBit
          intro i hi
          rw [BitVec.toNat_xor, BitVec.toNat_twoPow_of_lt hk, Nat.testBit_xor]
          rcases hi.eq_or_lt with rfl | hlt
          · rw [Nat.testBit_of_two_pow_le_and_two_pow_add_one_gt (not_lt.1 hbit) hc, Nat.testBit_two_pow_self]
            rfl
          · have hpow : 2 ^ (k + 1) ≤ 2 ^ i := Nat.pow_le_pow_right (by decide) hlt
            rw [Nat.testBit_lt_two_pow (lt_of_lt_of_le hc hpow), Nat.testBit_two_pow_of_ne hlt.ne]
            rfl
        rw [hsplit, hf, hg, ih (by omega) _ hrest, h k hk]
  exact hlow w le_rfl c c.isLt

end CkbDilithium.LinearRegister
