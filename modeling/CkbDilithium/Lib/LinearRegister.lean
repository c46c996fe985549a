import Mathlib.Tactic
import Mathlib.Algebra.Group.Hom.Basic

/-!
# Linear shift registers

A register over a commutative group that absorbs a symbol `v` by `c ↦ T c + v` with `T` additive, as
the remainder registers of cyclic codes do. When `T` is injective no symbol's influence ever
vanishes: the final state determines the initial one (`run_injective`), two inputs that differ in one
symbol end in different states (`eq_of_run_substitute`), and exchanging neighbours `a` and `b` is
only missed if `T` fixes `a - b` (`fixed_of_run_exchange`).
-/

namespace CkbDilithium.LinearRegister

variable {V : Type*} [AddCommGroup V] (T : V →+ V)

/-- The state after absorbing the symbols `vs` from the state `c`. -/
def run (c : V) (vs : List V) : V := vs.foldl (fun c v => T c + v) c

@[simp] theorem run_cons (c v : V) (vs : List V) : run T c (v :: vs) = run T (T c + v) vs := rfl

theorem run_append (c : V) (vs ws : List V) : run T c (vs ++ ws) = run T (run T c vs) ws :=
  List.foldl_append

/-- Superposition: states and symbols add. -/
theorem run_add (c d : V) (vs : List V) :
    run T (c + d) vs = run T c (List.replicate vs.length 0) + run T d vs := by
  induction vs generalizing c d with
  | nil => rfl
  | cons v vs ih =>
    rw [run_cons, map_add, add_assoc, ih, List.length_cons, List.replicate_succ, run_cons, run_cons,
      add_zero]

/-- A run is the run on zero symbols plus the run from the zero state. -/
theorem run_eq_add (c : V) (vs : List V) :
    run T c vs = run T c (List.replicate vs.length 0) + run T 0 vs := by
  rw [← run_add, add_zero]

variable {T}

theorem run_injective (hT : Function.Injective T) (vs : List V) {c d : V}
    (h : run T c vs = run T d vs) : c = d := by
  induction vs generalizing c d with
  | nil => exact h
  | cons v vs ih => exact hT (add_right_cancel (ih h))

/-- A single substituted symbol changes the final state. -/
theorem eq_of_run_substitute (hT : Function.Injective T) {c : V} (vs ws : List V) {a b : V}
    (h : run T c (vs ++ a :: ws) = run T c (vs ++ b :: ws)) : a = b := by
  rw [run_append, run_append, run_cons, run_cons] at h
  exact add_left_cancel (run_injective hT ws h)

/-- Exchanged neighbours go unnoticed only if `T` fixes their difference. -/
theorem fixed_of_run_exchange (hT : Function.Injective T) {c : V} (vs ws : List V) {a b : V}
    (h : run T c (vs ++ a :: b :: ws) = run T c (vs ++ b :: a :: ws)) : T (a - b) = a - b := by
  rw [run_append, run_append, run_cons, run_cons, run_cons, run_cons] at h
  have hstate := run_injective hT ws h
  rw [map_add, map_add, add_assoc, add_assoc, add_right_inj] at hstate
  rw [map_sub, sub_eq_sub_iff_add_eq_add, hstate, add_comm]

end CkbDilithium.LinearRegister
