import Mathlib.Tactic

/-!
# Computations that may fail

What a successful run of a sequence of steps in `Except` says (`bind_eq_ok` and its companions, the
simp set every model proof peels computations apart with), what a successful traversal says
(`mapM_eq_ok`), and the search for the first prefix of a list on which a step produces a value
(`firstPrefix`).
-/

namespace CkbDilithium.Result

variable {ε α β γ : Type}

/-! ### Sequencing -/

@[simp] theorem bind_eq_ok {x : Except ε α} {f : α → Except ε β} {b : β} :
    (x >>= f) = .ok b ↔ ∃ a, x = .ok a ∧ f a = .ok b := by
  cases x <;> simp [bind, Except.bind]

@[simp] theorem pure_eq_ok {a b : α} : (pure a : Except ε α) = .ok b ↔ a = b := by
  simp [pure, Except.pure]

@[simp] theorem throw_ne_ok {e : ε} {a : α} : (throw e : Except ε α) ≠ .ok a := by
  simp [throw, throwThe, MonadExceptOf.throw]

/-- A guard that throws on failure. -/
@[simp] theorem ite_throw_eq_ok {p : Prop} [Decidable p] {x : Except ε α} {e : ε} {b : α} :
    (if p then throw e else x) = .ok b ↔ ¬ p ∧ x = .ok b := by
  by_cases hp : p <;> simp [hp]

@[simp] theorem ok_bind (a : α) (f : α → Except ε β) : (Except.ok a >>= f) = f a := rfl

@[simp] theorem error_bind (e : ε) (f : α → Except ε β) : (Except.error e >>= f) = .error e := rfl

/-- A run returns one value. -/
theorem ok_unique {x : Except ε α} {a b : α} (ha : x = .ok a) (hb : x = .ok b) : a = b :=
  Except.ok.inj (ha.symm.trans hb)

/-- A run either returns or throws. -/
theorem ok_or_error (x : Except ε α) : (∃ a, x = .ok a) ∨ ∃ e, x = .error e := by
  cases x with
  | error e => exact Or.inr ⟨e, rfl⟩
  | ok a => exact Or.inl ⟨a, rfl⟩

theorem exists_error_of_not_ok {x : Except ε α} (h : ∀ a, x ≠ .ok a) : ∃ e, x = .error e :=
  (ok_or_error x).resolve_left fun ⟨a, ha⟩ => h a ha

/-! ### Traversals -/

/-- A traversal returns the list of the single results. -/
theorem mapM_eq_ok {f : α → Except ε β} {xs : List α} {ys : List β} :
    xs.mapM f = .ok ys ↔ List.Forall₂ (fun x y => f x = .ok y) xs ys := by
  induction xs generalizing ys with
  | nil =>
    simp only [List.mapM_nil, pure_eq_ok, List.forall₂_nil_left_iff]
    exact eq_comm
  | cons x xs ih =>
    simp only [List.mapM_cons, bind_eq_ok, pure_eq_ok, ih, List.forall₂_cons_left_iff]
    constructor
    · intro h
      rcases h with ⟨y, hy, ys', hys, rfl⟩
      exact ⟨y, ys', hy, hys, rfl⟩
    · intro h
      rcases h with ⟨y, ys', hy, hys, rfl⟩
      exact ⟨y, hy, ys', hys, rfl⟩

theorem mapM_length {f : α → Except ε β} {xs : List α} {ys : List β} (h : xs.mapM f = .ok ys) :
    ys.length = xs.length :=
  (mapM_eq_ok.1 h).length_eq.symm

/-- A measure of the results that each step determines. -/
theorem mapM_map {f : α → Except ε β} {g : β → γ} (value : α → γ) {xs : List α} {ys : List β}
    (h : xs.mapM f = .ok ys) (hvalue : ∀ x y, f x = .ok y → g y = value x) : ys.map g = xs.map value := by
  induction xs generalizing ys with
  | nil =>
    obtain rfl := List.forall₂_nil_left_iff.1 (mapM_eq_ok.1 h)
    rfl
  | cons x xs ih =>
    obtain ⟨y, ys', hy, hys, rfl⟩ := List.forall₂_cons_left_iff.1 (mapM_eq_ok.1 h)
    rw [List.map_cons, List.map_cons, hvalue x y hy, ih (mapM_eq_ok.2 hys)]

/-- The results, when each step determines its own. -/
theorem mapM_eq_map {f : α → Except ε β} (value : α → β) {xs : List α} {ys : List β}
    (h : xs.mapM f = .ok ys) (hvalue : ∀ x y, f x = .ok y → y = value x) : ys = xs.map value := by
  have hmap := mapM_map (g := id) value h hvalue
  rwa [List.map_id] at hmap

theorem mapM_returns {f : α → Except ε β} {xs : List α} (h : ∀ x ∈ xs, ∃ y, f x = .ok y) :
    ∃ ys, xs.mapM f = .ok ys := by
  induction xs with
  | nil => exact ⟨[], rfl⟩
  | cons x xs ih =>
    obtain ⟨y, hy⟩ := h x (by simp)
    obtain ⟨ys, hys⟩ := ih fun x' hx' => h x' (by simp [hx'])
    exact ⟨y :: ys, mapM_eq_ok.2 (.cons hy (mapM_eq_ok.1 hys))⟩

/-- Every step of a traversal that returns has returned. -/
theorem mapM_steps {f : α → Except ε β} {xs : List α} {ys : List β} (h : xs.mapM f = .ok ys) :
    ∀ x ∈ xs, ∃ y, f x = .ok y := by
  have hsteps := mapM_eq_ok.1 h
  clear h
  induction hsteps with
  | nil => simp
  | cons hy _ ih =>
    intro x hx
    rcases List.mem_cons.1 hx with rfl | hx
    · exact ⟨_, hy⟩
    · exact ih x hx

/-- A traversal whose steps all return is a `map`. -/
theorem mapM_of_forall_ok {f : α → Except ε β} {g : α → β} {xs : List α}
    (h : ∀ x ∈ xs, f x = .ok (g x)) : xs.mapM f = .ok (xs.map g) := by
  rw [mapM_eq_ok, List.forall₂_map_right_iff, List.forall₂_same]
  exact h

/-- Reading back each result of a traversal gives what `read` says of each element. -/
theorem mapM_read {write : α → Except ε β} {read : β → Option γ} {value : α → γ} {xs : List α}
    {ys : List β} (h : xs.mapM write = .ok ys)
    (hread : ∀ x ∈ xs, ∀ y, write x = .ok y → read y = some (value x)) :
    ys.mapM read = some (xs.map value) := by
  induction xs generalizing ys with
  | nil =>
    obtain rfl := List.forall₂_nil_left_iff.1 (mapM_eq_ok.1 h)
    rfl
  | cons x xs ih =>
    obtain ⟨y, ys', hy, hys, rfl⟩ := List.forall₂_cons_left_iff.1 (mapM_eq_ok.1 h)
    have htail := ih (mapM_eq_ok.2 hys) fun x' hx' => hread x' (by simp [hx'])
    simp [List.mapM_cons, hread x (by simp) y hy, htail]

/-! ### Errors that do not occur -/

/-- The computation does not end in the error `e`. -/
def Avoids (e : ε) (x : Except ε α) : Prop := x ≠ .error e

variable {e : ε}

theorem avoids_pure (a : α) : Avoids e (pure a) := by
  intro h
  cases h

theorem avoids_throw {e' : ε} (h : e' ≠ e) : Avoids e (throw e' : Except ε α) := by
  intro heq
  exact h (Except.error.inj heq)

theorem Avoids.bind {x : Except ε α} {f : α → Except ε β} (hx : Avoids e x) (hf : ∀ a, Avoids e (f a)) :
    Avoids e (x >>= f) := by
  cases x with
  | error e' =>
    intro h
    exact hx (congrArg Except.error (Except.error.inj h))
  | ok a => exact hf a

/-- An error that the first step does not throw comes from the second. -/
theorem Avoids.bind_eq_error {x : Except ε α} {f : α → Except ε β} (hx : Avoids e x)
    (h : (x >>= f) = .error e) : ∃ a, x = .ok a ∧ f a = .error e := by
  cases x with
  | error e' => exact absurd (congrArg Except.error (Except.error.inj h)) hx
  | ok a => exact ⟨a, rfl, h⟩

theorem Avoids.ite {p : Prop} [Decidable p] {x y : Except ε α} (hx : Avoids e x) (hy : Avoids e y) :
    Avoids e (if p then x else y) := by
  by_cases hp : p
  · rwa [if_pos hp]
  · rwa [if_neg hp]

theorem Avoids.mapM {f : α → Except ε β} (h : ∀ x, Avoids e (f x)) (xs : List α) : Avoids e (xs.mapM f) := by
  induction xs with
  | nil => exact avoids_pure []
  | cons x xs ih =>
    rw [List.mapM_cons]
    exact (h x).bind fun y => ih.bind fun ys => avoids_pure _

/-! ### The first prefix that produces a value -/

/-- Extend `acc` one element at a time and stop at the first prefix on which `f` produces a value. -/
def firstPrefix (f : List α → Except ε (Option β)) : List α → List α → Except ε (Option β)
  | _, [] => pure none
  | acc, a :: l => do
    match ← f (acc ++ [a]) with
    | some b => pure (some b)
    | none => firstPrefix f (acc ++ [a]) l

theorem take_succ_ne_nil {l : List α} {k : Nat} (hk : k < l.length) : l.take (k + 1) ≠ [] := by
  intro hnil
  have hlen := congrArg List.length hnil
  rw [List.length_take, List.length_nil] at hlen
  omega

/-- A longer prefix begins with the element the search takes next. -/
theorem append_take_cons (acc l : List α) (a : α) (j : Nat) :
    acc ++ (a :: l).take (j + 1 + 1) = (acc ++ [a]) ++ l.take (j + 1) := by
  simp

variable {f : List α → Except ε (Option β)}

/-- The search finds `b` when some prefix produces it and every shorter one produces nothing. -/
theorem firstPrefix_eq_some {acc l : List α} {b : β} :
    firstPrefix f acc l = .ok (some b) ↔
      ∃ k < l.length, f (acc ++ l.take (k + 1)) = .ok (some b) ∧
        ∀ j < k, f (acc ++ l.take (j + 1)) = .ok none := by
  induction l generalizing acc with
  | nil => simp [firstPrefix]
  | cons a l ih =>
    constructor
    · intro h
      simp only [firstPrefix, bind_eq_ok] at h
      obtain ⟨o, ho, h⟩ := h
      cases o with
      | some b' =>
        simp only [pure_eq_ok, Option.some.injEq] at h
        exact ⟨0, by simp, by simpa [h] using ho, by simp⟩
      | none =>
        obtain ⟨k, hk, hfound, hbefore⟩ := ih.1 h
        refine ⟨k + 1, by simpa using hk, by rw [append_take_cons]; exact hfound, ?_⟩
        intro j hj
        cases j with
        | zero => simpa using ho
        | succ j => rw [append_take_cons]; exact hbefore j (by omega)
    · intro h
      rcases h with ⟨k, hk, hfound, hbefore⟩
      simp only [firstPrefix, bind_eq_ok]
      cases k with
      | zero => exact ⟨some b, by simpa using hfound, rfl⟩
      | succ k =>
        refine ⟨none, by simpa using hbefore 0 (by omega), ih.2 ⟨k, by simpa using hk, ?_, ?_⟩⟩
        · rw [← append_take_cons]; exact hfound
        · intro j hj
          rw [← append_take_cons]; exact hbefore (j + 1) (by omega)

/-- The search comes to nothing when every prefix produces nothing. -/
theorem firstPrefix_eq_none {acc l : List α} :
    firstPrefix f acc l = .ok none ↔ ∀ k < l.length, f (acc ++ l.take (k + 1)) = .ok none := by
  induction l generalizing acc with
  | nil => simp [firstPrefix]
  | cons a l ih =>
    simp only [firstPrefix, bind_eq_ok]
    constructor
    · intro h k hk
      obtain ⟨o, ho, h⟩ := h
      cases o with
      | some b => simp at h
      | none =>
        cases k with
        | zero => simpa using ho
        | succ k =>
          rw [append_take_cons]
          exact ih.1 h k (by simpa using hk)
    · intro h
      refine ⟨none, by simpa using h 0 (by simp), ih.2 fun k hk => ?_⟩
      rw [← append_take_cons]
      exact h (k + 1) (by simpa using hk)

/-- A search over prefixes that can all be tried ends. -/
theorem firstPrefix_returns {acc l : List α} (h : ∀ k < l.length, ∃ o, f (acc ++ l.take (k + 1)) = .ok o) :
    ∃ o, firstPrefix f acc l = .ok o := by
  induction l generalizing acc with
  | nil => exact ⟨none, rfl⟩
  | cons a l ih =>
    obtain ⟨o, ho⟩ := h 0 (by simp)
    have hfirst : f (acc ++ [a]) = .ok o := by simpa using ho
    simp only [firstPrefix, hfirst, ok_bind]
    cases o with
    | some b => exact ⟨some b, rfl⟩
    | none =>
      refine ih fun k hk => ?_
      obtain ⟨o, ho⟩ := h (k + 1) (by simpa using hk)
      exact ⟨o, by simpa using ho⟩

theorem Avoids.firstPrefix {e : ε} (h : ∀ l, Avoids e (f l)) (acc l : List α) :
    Avoids e (firstPrefix f acc l) := by
  induction l generalizing acc with
  | nil => exact avoids_pure none
  | cons a l ih =>
    refine (h (acc ++ [a])).bind fun o => ?_
    cases o with
    | some b => exact avoids_pure (some b)
    | none => exact ih (acc ++ [a])

end CkbDilithium.Result
