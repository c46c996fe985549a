import CkbDilithium.Lib.Result

/-!
# Two runs of a computation

A relation between the values of two computations in `Except`, lifted to the computations: both throw the
same error, or both return related values (`Related`). The rules follow the constructions of the
computations, so that two runs on related inputs are compared step by step; the last one is for the
search over prefixes (`Related.firstPrefix`).
-/

namespace CkbDilithium.Result

variable {ε α α' β β' : Type}

inductive Related (R : α → α' → Prop) : Except ε α → Except ε α' → Prop where
  | error (e : ε) : Related R (.error e) (.error e)
  | ok {a : α} {a' : α'} (h : R a a') : Related R (.ok a) (.ok a')

variable {R : α → α' → Prop} {S : β → β' → Prop} {x : Except ε α} {y : Except ε α'}

/-- One returns exactly when the other does. -/
theorem Related.returns_iff (h : Related R x y) : (∃ a, x = .ok a) ↔ ∃ a', y = .ok a' := by
  cases h with
  | error e => simp
  | ok h => simp

theorem Related.of_ok (h : Related R x y) {a : α} {a' : α'} (hx : x = .ok a) (hy : y = .ok a') : R a a' := by
  subst hx hy
  cases h with
  | ok h => exact h

theorem Related.refl (x : Except ε α) : Related Eq x x := by
  cases x with
  | error e => exact .error e
  | ok a => exact .ok rfl

theorem Related.pure {a : α} {a' : α'} (h : R a a') : Related R (pure a : Except ε α) (pure a') := .ok h

theorem Related.bind {f : α → Except ε β} {g : α' → Except ε β'} (h : Related R x y)
    (hf : ∀ a a', R a a' → Related S (f a) (g a')) : Related S (x >>= f) (y >>= g) := by
  cases h with
  | error e => exact .error e
  | ok h => exact hf _ _ h

/-- A step that both runs share. -/
theorem Related.bind_same {f : α → Except ε β} {g : α → Except ε β'} (x : Except ε α)
    (hf : ∀ a, Related S (f a) (g a)) : Related S (x >>= f) (x >>= g) := by
  refine (Related.refl x).bind fun a a' h => ?_
  subst h
  exact hf a

theorem Related.ite {p : Prop} [Decidable p] {x' : Except ε α} {y' : Except ε α'} (h : Related R x y)
    (h' : Related R x' y') : Related R (if p then x else x') (if p then y else y') := by
  by_cases hp : p
  · rw [if_pos hp, if_pos hp]
    exact h
  · rw [if_neg hp, if_neg hp]
    exact h'

/-- Searches over lists whose prefixes of equal length give related results. -/
theorem Related.firstPrefix {f : List α → Except ε (Option β)} {g : List α' → Except ε (Option β')}
    {l : List α} {l' : List α'} (hlen : l.length = l'.length) (acc : List α) (acc' : List α')
    (h : ∀ k < l.length,
      Related (Option.Rel S) (f (acc ++ l.take (k + 1))) (g (acc' ++ l'.take (k + 1)))) :
    Related (Option.Rel S) (firstPrefix f acc l) (firstPrefix g acc' l') := by
  induction l generalizing acc acc' l' with
  | nil =>
    obtain rfl := List.length_eq_zero_iff.1 hlen.symm
    exact .ok .none
  | cons a l ih =>
    cases l' with
    | nil => simp at hlen
    | cons a' l' =>
      have hfirst : Related (Option.Rel S) (f (acc ++ [a])) (g (acc' ++ [a'])) := by
        simpa using h 0 (by simp)
      refine hfirst.bind fun o o' ho => ?_
      cases ho with
      | some hb => exact .ok (.some hb)
      | none =>
        refine ih (by simpa using hlen) (acc ++ [a]) (acc' ++ [a']) fun k hk => ?_
        simpa using h (k + 1) (by simpa using hk)

end CkbDilithium.Result
