import Mathlib.Tactic

/-!
# Computations that act on a state

An action reads and changes a state and then returns or throws. A loop without a bound of its own is run
with fuel, and a run that the fuel was not enough for has no outcome. `Ends x s r s'` says that the run of
`x` from `s` ends with the result `r` in the state `s'`; the `_ends` lemmas take the run of a compound
action apart. `Keeps` is what every run does to the state, whichever way it ends, `Total` that every run
ends, and the runs of a loop are counted in rounds (`Rounds`).
-/

namespace CkbDilithium

/-- `none` is a run that has used up its fuel. -/
def Action (σ ε α : Type) : Type := σ → Option (Except ε α × σ)

namespace Action

variable {σ ε α β γ : Type}

/-! ### Actions -/

instance : Monad (Action σ ε) where
  pure a := fun s => some (.ok a, s)
  bind x f := fun s =>
    match x s with
    | none => none
    | some (.error e, s') => some (.error e, s')
    | some (.ok a, s') => f a s'

/-- A computation that leaves the state alone. -/
def lift (r : Except ε α) : Action σ ε α := fun s => some (r, s)

/-- Read something off the state and change it. -/
def update (f : σ → Except ε α × σ) : Action σ ε α := fun s => some (f s)

/-- `try { x } catch (e) { handle(e) }`. -/
def catching (x : Action σ ε α) (handle : ε → Action σ ε α) : Action σ ε α := fun s =>
  match x s with
  | none => none
  | some (.error e, s') => handle e s'
  | some (.ok a, s') => some (.ok a, s')

/-- `try { x } finally { cleanup }`. -/
def ensuring (x : Action σ ε α) (cleanup : Action σ ε Unit) : Action σ ε α := fun s =>
  match x s with
  | none => none
  | some (r, s') =>
    match cleanup s' with
    | none => none
    | some (.error e, s'') => some (.error e, s'')
    | some (.ok _, s'') => some (r, s'')

/-- `for (;;) { body }`: run the body on the variables of the loop until it returns. -/
def loop (body : β → Action σ ε (β ⊕ α)) : (fuel : Nat) → β → Action σ ε α
  | 0, _ => fun _ => none
  | fuel + 1, b => do
    match ← body b with
    | .inl b => loop body fuel b
    | .inr a => pure a

/-! ### Runs that end -/

/-- The run from `s` ends with the result `r` in the state `s'`. -/
def Ends (x : Action σ ε α) (s : σ) (r : Except ε α) (s' : σ) : Prop := x s = some (r, s')

theorem Ends.unique {x : Action σ ε α} {s s₁ s₂ : σ} {r₁ r₂ : Except ε α} (h₁ : Ends x s r₁ s₁)
    (h₂ : Ends x s r₂ s₂) : r₁ = r₂ ∧ s₁ = s₂ :=
  Prod.mk.inj (Option.some.inj (h₁.symm.trans h₂))

@[simp] theorem pure_ends {a : α} {s s' : σ} {r : Except ε α} :
    Ends (pure a : Action σ ε α) s r s' ↔ r = .ok a ∧ s' = s := by
  constructor
  · intro h
    cases h
    exact ⟨rfl, rfl⟩
  · rintro ⟨rfl, rfl⟩
    rfl

@[simp] theorem lift_ends {x r : Except ε α} {s s' : σ} : Ends (lift x) s r s' ↔ r = x ∧ s' = s := by
  constructor
  · intro h
    cases h
    exact ⟨rfl, rfl⟩
  · rintro ⟨rfl, rfl⟩
    rfl

@[simp] theorem update_ends {f : σ → Except ε α × σ} {s s' : σ} {r : Except ε α} :
    Ends (update f) s r s' ↔ f s = (r, s') :=
  ⟨fun h => Option.some.inj h, fun h => congrArg some h⟩

theorem bind_ends {x : Action σ ε α} {f : α → Action σ ε β} {s s' : σ} {r : Except ε β} :
    Ends (x >>= f) s r s' ↔
      (∃ e, r = .error e ∧ Ends x s (.error e) s') ∨ ∃ a s₁, Ends x s (.ok a) s₁ ∧ Ends (f a) s₁ r s' := by
  simp only [Ends, bind]
  rcases hx : x s with _ | ⟨e | a, s₁⟩
  · simp
  · simp [eq_comm]
  · simp

@[simp] theorem bind_returns {x : Action σ ε α} {f : α → Action σ ε β} {s s' : σ} {b : β} :
    Ends (x >>= f) s (.ok b) s' ↔ ∃ a s₁, Ends x s (.ok a) s₁ ∧ Ends (f a) s₁ (.ok b) s' := by
  rw [bind_ends]
  simp

theorem Ends.bind {x : Action σ ε α} {f : α → Action σ ε β} {s s₁ s' : σ} {a : α} {r : Except ε β}
    (h : Ends x s (.ok a) s₁) (hrest : Ends (f a) s₁ r s') : Ends (x >>= f) s r s' :=
  bind_ends.2 (Or.inr ⟨a, s₁, h, hrest⟩)

theorem catching_ends {x : Action σ ε α} {handle : ε → Action σ ε α} {s s' : σ} {r : Except ε α} :
    Ends (catching x handle) s r s' ↔
      (∃ a, r = .ok a ∧ Ends x s (.ok a) s') ∨ ∃ e s₁, Ends x s (.error e) s₁ ∧ Ends (handle e) s₁ r s' := by
  simp only [Ends, catching]
  rcases hx : x s with _ | ⟨e | a, s₁⟩
  · simp
  · simp
  · simp [eq_comm]

theorem Ends.ensuring {x : Action σ ε α} {cleanup : Action σ ε Unit} {s s₁ s' : σ} {r : Except ε α}
    (h : Ends x s r s₁) (hcleanup : Ends cleanup s₁ (.ok ()) s') : Ends (ensuring x cleanup) s r s' := by
  simp only [Ends] at h hcleanup
  simp only [Ends, Action.ensuring, h, hcleanup]

theorem Ends.bind_throws {x : Action σ ε α} {f : α → Action σ ε β} {s s' : σ} {e : ε} (h : Ends x s (.error e) s') :
    Ends (x >>= f) s (.error e) s' :=
  bind_ends.2 (Or.inl ⟨e, rfl, h⟩)

/-! ### What every run does to the state -/

/-- Whichever way a run ends, it relates the states before and after. -/
def Keeps (R : σ → σ → Prop) (x : Action σ ε α) : Prop := ∀ s r s', Ends x s r s' → R s s'

section Keeps

variable {R : σ → σ → Prop} [IsPreorder σ R]

theorem Keeps.pure (a : α) : Keeps R (pure a : Action σ ε α) := by
  intro s r s' h
  obtain ⟨-, rfl⟩ := pure_ends.1 h
  exact refl_of R _

theorem Keeps.lift (x : Except ε α) : Keeps R (lift x : Action σ ε α) := by
  intro s r s' h
  obtain ⟨-, rfl⟩ := lift_ends.1 h
  exact refl_of R _

theorem Keeps.bind {x : Action σ ε α} {f : α → Action σ ε β}
    (hx : Keeps R x) (hf : ∀ a, Keeps R (f a)) : Keeps R (x >>= f) := by
  intro s r s' h
  rcases bind_ends.1 h with ⟨e, -, hthrows⟩ | ⟨a, s₁, hreturns, hrest⟩
  · exact hx _ _ _ hthrows
  · exact trans_of R (hx _ _ _ hreturns) (hf a _ _ _ hrest)

theorem Keeps.lift_bind {x : Except ε α} {f : α → Action σ ε β} (hf : ∀ a, x = .ok a → Keeps R (f a)) :
    Keeps R (Action.lift x >>= f) := by
  intro s r s' h
  rcases bind_ends.1 h with ⟨e, -, hthrows⟩ | ⟨a, s₁, hreturns, hrest⟩
  · exact Keeps.lift x _ _ _ hthrows
  · obtain ⟨hx, rfl⟩ := lift_ends.1 hreturns
    exact hf a hx.symm _ _ _ hrest

theorem Keeps.catching {x : Action σ ε α}
    {handle : ε → Action σ ε α} (hx : Keeps R x) (hhandle : ∀ e, Keeps R (handle e)) :
    Keeps R (catching x handle) := by
  intro s r s' h
  rcases catching_ends.1 h with ⟨a, -, hreturns⟩ | ⟨e, s₁, hthrows, hrest⟩
  · exact hx _ _ _ hreturns
  · exact trans_of R (hx _ _ _ hthrows) (hhandle e _ _ _ hrest)

theorem Keeps.loop {body : β → Action σ ε (β ⊕ α)} (hbody : ∀ b, Keeps R (body b)) (fuel : Nat) (b : β) :
    Keeps R (loop body fuel b) := by
  induction fuel generalizing b with
  | zero => intro s r s' h; cases h
  | succ fuel ih =>
    refine Keeps.bind (hbody b) fun step => ?_
    cases step with
    | inl b => exact ih b
    | inr a => exact Keeps.pure a

end Keeps

/-! ### Rounds of a loop -/

section Loop

variable {body : β → Action σ ε (β ⊕ α)}

/-- `n` rounds that go on lead from the variables `b` in the state `s` to `b'` in `s'`. -/
inductive Rounds (body : β → Action σ ε (β ⊕ α)) : Nat → β → σ → β → σ → Prop
  | zero (b : β) (s : σ) : Rounds body 0 b s b s
  | succ {n : Nat} {b b₁ b' : β} {s s₁ s' : σ} (round : Ends (body b) s (.ok (.inl b₁)) s₁)
      (rest : Rounds body n b₁ s₁ b' s') : Rounds body (n + 1) b s b' s'

/-- The body is run a last time and the loop is left: with a value or with an error. -/
def Leaves (body : β → Action σ ε (β ⊕ α)) (b : β) (s : σ) (r : Except ε α) (s' : σ) : Prop :=
  (∃ e, r = .error e ∧ Ends (body b) s (.error e) s') ∨ ∃ a, r = .ok a ∧ Ends (body b) s (.ok (.inr a)) s'

/-- **A loop ends** after some rounds that go on, fewer than its fuel, and one that leaves. -/
theorem loop_ends {fuel : Nat} {b : β} {s s' : σ} {r : Except ε α} :
    Ends (loop body fuel b) s r s' ↔
      ∃ n < fuel, ∃ b' s₁, Rounds body n b s b' s₁ ∧ Leaves body b' s₁ r s' := by
  induction fuel generalizing b s with
  | zero =>
    constructor
    · intro h
      cases h
    · rintro ⟨n, hn, -⟩
      omega
  | succ fuel ih =>
    rw [loop, bind_ends]
    constructor
    · rintro (⟨e, rfl, hthrows⟩ | ⟨b₁ | a, s₁, hround, hrest⟩)
      · exact ⟨0, by omega, b, s, .zero b s, Or.inl ⟨e, rfl, hthrows⟩⟩
      · obtain ⟨n, hn, b', s₂, hrounds, hleaves⟩ := ih.1 hrest
        exact ⟨n + 1, by omega, b', s₂, .succ hround hrounds, hleaves⟩
      · obtain ⟨rfl, rfl⟩ := pure_ends.1 hrest
        exact ⟨0, by omega, b, s, .zero b s, Or.inr ⟨a, rfl, hround⟩⟩
    · rintro ⟨n, hn, b', s₁, hrounds, hleaves⟩
      cases hrounds with
      | zero =>
        rcases hleaves with ⟨e, rfl, hthrows⟩ | ⟨a, rfl, hreturns⟩
        · exact Or.inl ⟨e, rfl, hthrows⟩
        · exact Or.inr ⟨.inr a, s', hreturns, pure_ends.2 ⟨rfl, rfl⟩⟩
      | @succ n _ b₁ _ _ s₂ _ hround hrest =>
        exact Or.inr ⟨.inl b₁, s₂, hround, ih.2 ⟨n, by omega, b', s₁, hrest, hleaves⟩⟩

/-- More fuel changes nothing. -/
theorem Ends.more_fuel {fuel fuel' : Nat} {b : β} {s s' : σ} {r : Except ε α}
    (h : Ends (loop body fuel b) s r s') (hle : fuel ≤ fuel') : Ends (loop body fuel' b) s r s' := by
  obtain ⟨n, hn, hrun⟩ := loop_ends.1 h
  exact loop_ends.2 ⟨n, lt_of_lt_of_le hn hle, hrun⟩

end Loop

/-! ### Runs that always end -/

/-- Every run ends. -/
def Total (x : Action σ ε α) : Prop := ∀ s, ∃ r s', Ends x s r s'

theorem Total.pure (a : α) : Total (pure a : Action σ ε α) := fun s => ⟨_, s, pure_ends.2 ⟨rfl, rfl⟩⟩

theorem Total.lift (x : Except ε α) : Total (lift x : Action σ ε α) := fun s => ⟨x, s, lift_ends.2 ⟨rfl, rfl⟩⟩

theorem Total.bind {x : Action σ ε α} {f : α → Action σ ε β} (hx : Total x) (hf : ∀ a, Total (f a)) :
    Total (x >>= f) := by
  intro s
  obtain ⟨r, s₁, h⟩ := hx s
  cases r with
  | error e => exact ⟨.error e, s₁, bind_ends.2 (Or.inl ⟨e, rfl, h⟩)⟩
  | ok a =>
    obtain ⟨r, s', hrest⟩ := hf a s₁
    exact ⟨r, s', bind_ends.2 (Or.inr ⟨a, s₁, h, hrest⟩)⟩

theorem Total.lift_bind {x : Except ε α} {f : α → Action σ ε β} (hf : ∀ a, x = .ok a → Total (f a)) :
    Total (Action.lift x >>= f) := by
  cases x with
  | error e => exact fun s => ⟨.error e, s, bind_ends.2 (Or.inl ⟨e, rfl, lift_ends.2 ⟨rfl, rfl⟩⟩)⟩
  | ok a =>
    intro s
    obtain ⟨r, s', h⟩ := hf a rfl s
    exact ⟨r, s', bind_ends.2 (Or.inr ⟨a, s, lift_ends.2 ⟨rfl, rfl⟩, h⟩)⟩

/-- **A loop ends** when each round ends and the rounds that go on count down a measure under an invariant;
the fuel has to cover the measure. -/
theorem loop_total {body : β → Action σ ε (β ⊕ α)} (I : β → σ → Prop) (measure : β → σ → Nat)
    (hbody : ∀ b s, I b s → ∃ r s', Ends (body b) s r s')
    (hround : ∀ {b s b' s'}, I b s → Ends (body b) s (.ok (.inl b')) s' → I b' s' ∧ measure b' s' < measure b s)
    {fuel : Nat} {b : β} {s : σ} (hstart : I b s) (hfuel : measure b s < fuel) :
    ∃ r s', Ends (loop body fuel b) s r s' := by
  induction fuel generalizing b s with
  | zero => omega
  | succ fuel ih =>
    obtain ⟨r, s₁, h⟩ := hbody b s hstart
    rcases r with e | b₁ | a
    · exact ⟨.error e, s₁, bind_ends.2 (Or.inl ⟨e, rfl, h⟩)⟩
    · obtain ⟨hnext, hless⟩ := hround hstart h
      obtain ⟨r, s', hrest⟩ := ih hnext (by omega)
      exact ⟨r, s', bind_ends.2 (Or.inr ⟨.inl b₁, s₁, h, hrest⟩)⟩
    · exact ⟨.ok a, s₁, bind_ends.2 (Or.inr ⟨.inr a, s₁, h, pure_ends.2 ⟨rfl, rfl⟩⟩)⟩

/-! ### Two runs -/

/-- Two runs that went the same way: to the same state, with related values or with related errors. -/
inductive Alike (V : α → β → Prop) (E : ε → ε → Prop) : Option (Except ε α × σ) → Option (Except ε β × σ) → Prop
  | unfinished : Alike V E none none
  | returned {a : α} {b : β} (h : V a b) (s : σ) : Alike V E (some (.ok a, s)) (some (.ok b, s))
  | threw {e e' : ε} (h : E e e') (s : σ) : Alike V E (some (.error e, s)) (some (.error e', s))

/-- From every state the two go the same way. -/
def Parallel (V : α → β → Prop) (E : ε → ε → Prop) (x : Action σ ε α) (y : Action σ ε β) : Prop :=
  ∀ s, Alike V E (x s) (y s)

section Parallel

variable {V : α → β → Prop} {E : ε → ε → Prop} {x : Action σ ε α} {y : Action σ ε β}

theorem Parallel.bind {α' β' : Type} {W : α' → β' → Prop} {f : α → Action σ ε α'} {g : β → Action σ ε β'}
    (h : Parallel V E x y) (hf : ∀ a b, V a b → Parallel W E (f a) (g b)) : Parallel W E (x >>= f) (y >>= g) := by
  intro s
  have hs := h s
  simp only [Bind.bind]
  generalize x s = r at hs ⊢
  generalize y s = r' at hs ⊢
  cases hs with
  | unfinished => exact .unfinished
  | returned hV s' => exact hf _ _ hV s'
  | threw hE s' => exact .threw hE s'

/-- What handles related errors in parallel hides the difference. -/
theorem Parallel.catching {E' : ε → ε → Prop} {handle : ε → Action σ ε α} {handle' : ε → Action σ ε β}
    (h : Parallel V E x y) (hhandle : ∀ e e', E e e' → Parallel V E' (handle e) (handle' e')) :
    Parallel V E' (catching x handle) (catching y handle') := by
  intro s
  have hs := h s
  simp only [Action.catching]
  generalize x s = r at hs ⊢
  generalize y s = r' at hs ⊢
  cases hs with
  | unfinished => exact .unfinished
  | returned hV s' => exact .returned hV s'
  | threw hE s' => exact hhandle _ _ hE s'

theorem Parallel.eq {y : Action σ ε α} (h : Parallel Eq Eq x y) : x = y := by
  funext s
  have hs := h s
  generalize x s = r at hs
  generalize y s = r' at hs
  cases hs with
  | unfinished => rfl
  | returned hV s' => rw [hV]
  | threw hE s' => rw [hE]

variable [Std.Refl E]

theorem Parallel.same (x : Action σ ε α) : Parallel Eq E x x := by
  intro s
  rcases x s with _ | ⟨e | a, s'⟩
  · exact .unfinished
  · exact .threw (Std.Refl.refl e) s'
  · exact .returned rfl s'

/-- A step that both share. -/
theorem Parallel.bind_same {α' β' : Type} {W : α' → β' → Prop} {f : α → Action σ ε α'} {g : α → Action σ ε β'}
    (x : Action σ ε α) (hf : ∀ a, Parallel W E (f a) (g a)) : Parallel W E (x >>= f) (x >>= g) := by
  refine (Parallel.same x).bind fun a b h => ?_
  subst h
  exact hf a

theorem Parallel.lift_bind {α' β' : Type} {W : α' → β' → Prop} {r : Except ε α} {f : α → Action σ ε α'}
    {g : α → Action σ ε β'} (hf : ∀ a, r = .ok a → Parallel W E (f a) (g a)) :
    Parallel W E (Action.lift r >>= f) (Action.lift r >>= g) := by
  cases r with
  | error e => exact fun s => .threw (Std.Refl.refl e) s
  | ok a => exact hf a rfl

end Parallel

end Action

end CkbDilithium
